import MagxNet.Buf.Contents
import MagxNet.Buf.Capacity

set_option autoImplicit false

namespace MagxNet.Buf

-- x has the data and the info that a had.
structure SameData (h h' : Heap) (mem mem' : Memory) (a x : Nat) : Prop where
  length : h'.dend (.mem x) = h'.dstart (.mem x) + (h.dend (.mem a) - h.dstart (.mem a))
  bytes : ∀ i < h.dend (.mem a) - h.dstart (.mem a), mem' (h'.dstart (.mem x) + i) = mem (h.dstart (.mem a) + i)
  info : h'.info (.mem x) = h.info (.mem a)

structure Untouched (h h' : Heap) (mem mem' : Memory) (c : Nat) : Prop where
  buflen : h'.buflen (.mem c) = h.buflen (.mem c)
  links : h'.links (.mem c) = h.links (.mem c)
  start : h'.dstart (.mem c) = h.dstart (.mem c)
  stop : h'.dend (.mem c) = h.dend (.mem c)
  info : h'.info (.mem c) = h.info (.mem c)
  bytes : ∀ addr, c ≤ addr → addr < c + h.buflen (.mem c) → mem' addr = mem addr

def lead (h : Heap) (a : Nat) : Int := h.dstart (.mem a) - (a + SIZEOF_BUF)

def trail (h : Heap) (a : Nat) : Int := a + h.buflen (.mem a) - h.dend (.mem a)

-- The old buffer's reference is dropped with the new buffer, and only then.
structure Reserved (h h' : Heap) (mem mem' : Memory) (live : List Nat) (a x : Nat) (reserve : BitVec 32) (atEnd : Bool) : Prop where
  data : SameData h h' mem mem' a x
  proper : sanityCheck h' x = true
  space : reserve.toInt ≤ if atEnd then trail h' x else lead h' x
  front : atEnd = true → lead h a ≤ lead h' x
  old : x = a → Untouched h h' mem mem' a
  fresh : x ≠ a → x ∉ live ∧ h'.links (.mem x) = 1 ∧ h'.links (.mem a) = h.links (.mem a) - 1
  others : ∀ c ∈ live, c ≠ a → Untouched h h' mem mem' c

def ReserveHolds (kmalloc : Kmalloc) (s : State) (mem : Memory) (a : Nat) (reserve : BitVec 32) (atEnd : Bool) : Prop :=
  ∀ fuel, ∃ b h' mem', bufReserveBytes kmalloc (fuel + 2) s.heap mem (.mem a) reserve atEnd = .ret (b, h', mem') ∧
    ((b = .null ∧ ∀ c ∈ s.live, Untouched s.heap h' mem mem' c) ∨ ∃ x, b = .mem x ∧ Reserved s.heap h' mem mem' s.live a x reserve atEnd)

-- Beside the new buffer everything is as before, and what is written into one does not show in the other.
structure Cloned (h h' : Heap) (mem mem' : Memory) (live : List Nat) (a x : Nat) : Prop where
  data : SameData h h' mem mem' a x
  proper : sanityCheck h' x = true
  front : lead h a ≤ lead h' x
  one : h'.links (.mem x) = 1
  fresh : x ∉ live
  others : ∀ c ∈ live, Untouched h h' mem mem' c ∧ (x + h'.buflen (.mem x) ≤ c ∨ c + h'.buflen (.mem c) ≤ x)

def CloneHolds (kmalloc : Kmalloc) (s : State) (mem : Memory) (a : Nat) (atomic : Bool) : Prop :=
  ∀ fuel, ∃ b h' mem', bufCloneBytes kmalloc (fuel + 2) s.heap mem (.mem a) atomic = .ret (b, h', mem') ∧
    ((b = .null ∧ ∀ c ∈ s.live, Untouched s.heap h' mem mem' c) ∨ ∃ x, b = .mem x ∧ Cloned s.heap h' mem mem' s.live a x)

-- The space asked for, with what is to stay beside it, is a positive long.
def asked (h : Heap) (a : Nat) (reserve : BitVec 32) (atEnd : Bool) : Nat :=
  (if atEnd then h.dend (.mem a) - (a + SIZEOF_BUF) else a + h.buflen (.mem a) - h.dstart (.mem a))
    + (reserve.toNat + 1) / 2 * 2

def fits (h : Heap) (a : Nat) (reserve : BitVec 32) (atEnd : Bool) : Bool := decide (asked h a reserve atEnd < 2 ^ 31)

theorem untouched_refl (h : Heap) (mem : Memory) (c : Nat) : Untouched h h mem mem c :=
  ⟨rfl, rfl, rfl, rfl, rfl, fun _ _ _ => rfl⟩

theorem untouched_trans (h h' h'' : Heap) (mem mem' mem'' : Memory) (c : Nat) (first : Untouched h h' mem mem' c)
    (second : Untouched h' h'' mem' mem'' c) : Untouched h h'' mem mem'' c := by
  refine ⟨second.buflen.trans first.buflen, second.links.trans first.links, second.start.trans first.start,
    second.stop.trans first.stop, second.info.trans first.info, fun addr low high => ?_⟩
  rw [second.bytes addr low (by rwa [first.buflen]), first.bytes addr low high]

-- What the other holders see of a buf_deref.
theorem deref_untouched (m : State) (mem : Memory) (a c : Nat) (good : Good m) (inside : a ∈ m.live) (other : c ∈ m.live)
    (different : c ≠ a) : Untouched m.heap (bufDeref m.heap (.mem a)) mem mem c := by
  obtain ⟨kept, _⟩ := (deref_keeps m a good inside).2 c other different
  obtain ⟨bufs, free, inv, _, held⟩ := good
  have links := deref_links_apart m.heap bufs free a c inv (held.member a inside) (held.counted a inside) different
    (Or.inr (held.member c other))
  obtain ⟨info, _⟩ := deref_fields m.heap (.mem a) (held.counted a inside)
  exact ⟨kept.buflen, links, kept.start, kept.stop, by rw [info], fun _ _ _ => rfl⟩

section

variable (kmalloc : Kmalloc) (h h1 : Heap) (mem : Memory) (bufs bufs1 free1 : Nat → List Nat) (live : List Nat) (a x : Nat)

-- The heap behind the copy.
def copiedHeap (used : Nat) : Heap :=
  { h1 with
    dend := Function.update h1.dend (.mem x) (add32 (h1.dstart (.mem x)) (BitVec.ofInt 32 (used : Int)).toNat)
    info := Function.update h1.info (.mem x) (h1.info (.mem a)) }

theorem kept_untouched (c : Nat) (kept : Kept h h1 bufs bufs1 x) (held : Held h bufs live) (inside : c ∈ live) (other : c ≠ x)
    (info : h1.info = h.info) : Untouched h h1 mem mem c := by
  obtain ⟨_, links, len, start, stop⟩ := kept c other (held.member c inside) (held.counted c inside).ne'
  exact ⟨len, links, start, stop, by rw [info], fun _ _ _ => rfl⟩

-- What buf_clone and buf_reserve do alike: the data goes behind the lead of the buffer they have got.
structure Copied (lead' used : Nat) : Prop where
  copy : copyInto h1 (.mem x) (used : Int) = .ret ()
  start : h1.dstart (.mem x) = x + SIZEOF_BUF + lead'
  data : SameData h (copiedHeap h1 a x used) mem (memcpy mem (h1.dstart (.mem x)) (h1.dstart (.mem a)) used) a x
  proper : sanityCheck (copiedHeap h1 a x used) x = true
  fresh : x ∉ live
  one : h1.links (.mem x) = 1
  large : lead' + used + SIZEOF_BUF ≤ h1.buflen (.mem x)
  others : ∀ c ∈ live, c ≠ x ∧
    Untouched h (copiedHeap h1 a x used) mem (memcpy mem (h1.dstart (.mem x)) (h1.dstart (.mem a)) used) c ∧
      (x + h1.buflen (.mem x) ≤ c ∨ c + h1.buflen (.mem c) ≤ x)
  good : Good ⟨copiedHeap h1 a x used, x :: live⟩

theorem copied_contents (size : Nat) (reserve : BitVec 32) (used : Nat) (granted : Granted h h1 bufs bufs1 free1 x size reserve)
    (placed : Placed h1) (held : Held h bufs live) (inside : a ∈ live) (info : h1.info = h.info)
    (proper : sanityCheck h a = true) (length : used = h.dend (.mem a) - h.dstart (.mem a))
    (room : SIZEOF_BUF + reserve.toNat + used ≤ size) :
    Copied h h1 mem live a x reserve.toNat used := by
  have header : SIZEOF_BUF = 46 := rfl
  obtain ⟨first, order, last, small⟩ := sanity_bounds h a proper
  obtain ⟨block, bound⟩ := granted_bounds h h1 bufs bufs1 free1 x size reserve granted placed
  have limit : BUF_BLOCK_SIZE = 32768 := rfl
  have large := granted.large
  have start : h1.dstart (.mem x) = x + SIZEOF_BUF + reserve.toNat := by
    rw [granted.start, add32, Nat.mod_eq_of_lt (by omega)]
  have number : (BitVec.ofInt 32 (used : Int)).toNat = used := by
    rw [BitVec.toNat_ofInt]
    omega
  have stop : (copiedHeap h1 a x used).dend (.mem x) = h1.dstart (.mem x) + used := by
    unfold copiedHeap
    dsimp only
    rw [Function.update_self, number, add32, Nat.mod_eq_of_lt (by omega)]
  obtain ⟨different, _, startA, _⟩ := live_kept h bufs live a h1 bufs1 free1 x size reserve granted held inside
  have more := granted_held h h1 bufs bufs1 free1 live x size reserve held granted
  obtain ⟨copy, after⟩ := copied h bufs live h1 bufs1 free1 x size reserve used (h1.info (.mem a)) granted placed more
    (by omega)
  obtain ⟨inv2, placed2, held2, kept2⟩ := after _ rfl
  refine ⟨copy, start, ⟨?_, ?_, ?_⟩, ?_, granted_fresh h h1 bufs bufs1 free1 live x size reserve held granted, granted.one,
    by omega, fun c out => ?_, ⟨bufs1, free1, inv2, placed2, held2⟩⟩
  · rw [stop, length]
    rfl
  · intro i less
    rw [← startA]
    exact memcpy_here mem _ _ used i (length ▸ less)
  · show Function.update h1.info (.mem x) (h1.info (.mem a)) (.mem x) = _
    rw [Function.update_self, info]
  · have startSame : (copiedHeap h1 a x used).dstart (.mem x) = h1.dstart (.mem x) := rfl
    have lenSame : (copiedHeap h1 a x used).buflen (.mem x) = h1.buflen (.mem x) := rfl
    simp only [sanityCheck, startSame, lenSame, stop, start, Bool.and_eq_true, decide_eq_true_eq]
    omega
  · have other : c ≠ x := fun same =>
      granted_fresh h h1 bufs bufs1 free1 live x size reserve held granted (same ▸ out)
    have unequal : Ptr.mem c ≠ .mem x := fun same => other (mem_injective same)
    obtain ⟨len, links, startC, stopC, infoC, _⟩ := kept_untouched h h1 mem bufs bufs1 live x c granted.kept held out other info
    have apart := members_apart h1 bufs1 free1 [] x c granted.inv granted.member
      (more.member c (List.mem_cons_of_mem x out)) (Ne.symm other)
    refine ⟨other, ⟨len, links, startC, ?_, ?_, fun addr low high => ?_⟩, apart⟩
    · exact (Function.update_of_ne unequal _ _).trans stopC
    · exact (Function.update_of_ne unequal _ _).trans infoC
    · refine memcpy_outside mem _ _ used addr ?_
      omega

end

theorem lead_nat (h : Heap) (a : Nat) (proper : sanityCheck h a = true) :
    (BitVec.ofInt 32 (h.dstart (.mem a) - (a + SIZEOF_BUF))).toNat = h.dstart (.mem a) - (a + SIZEOF_BUF) := by
  obtain ⟨first, order, last, small⟩ := sanity_bounds h a proper
  have limit : BUF_BLOCK_SIZE = 32768 := rfl
  have header : SIZEOF_BUF = 46 := rfl
  rw [BitVec.toNat_ofInt]
  omega

theorem used_long (h h1 : Heap) (a : Nat) (proper : sanityCheck h a = true) (start : h1.dstart (.mem a) = h.dstart (.mem a))
    (stop : h1.dend (.mem a) = h.dend (.mem a)) :
    long (h1.dend (.mem a) - h1.dstart (.mem a)) = ((h.dend (.mem a) - h.dstart (.mem a) : Nat) : Int) := by
  obtain ⟨first, order, last, small⟩ := sanity_bounds h a proper
  have limit : BUF_BLOCK_SIZE = 32768 := rfl
  rw [start, stop, long_eq _ (by omega) (by omega)]
  omega

theorem clone_holds (kmalloc : Kmalloc) (s : State) (mem : Memory) (a : Nat) (atomic : Bool) (good : Good s)
    (ok : KmallocOk kmalloc) (inside : a ∈ s.live) (proper : sanityCheck s.heap a = true) : CloneHolds kmalloc s mem a atomic := by
  intro fuel
  obtain ⟨bufs, free, inv, placed, held⟩ := good
  obtain ⟨small, least⟩ := live_size s.heap bufs free s.live a inv held inside
  obtain ⟨first, order, last, _⟩ := sanity_bounds s.heap a proper
  obtain ⟨⟨b, h1⟩, run⟩ := alloc_returns kmalloc (BitVec.ofInt 32 (s.heap.buflen (.mem a) - SIZEOF_BUF))
    (BitVec.ofInt 32 (s.heap.dstart (.mem a) - (a + SIZEOF_BUF))) atomic ok fuel s.heap bufs free inv
  obtain ⟨place, outcome⟩ := alloc_spec kmalloc _ _ atomic ok _ s.heap h1 b bufs free inv run
  have info := alloc_info kmalloc _ s.heap h1 _ _ atomic b run
  rcases outcome with ⟨rfl, bufs1, free1, inv1, kept⟩ | ⟨x, bufs1, free1, rfl, granted⟩
  · refine ⟨.null, h1, mem, ?_, Or.inl ⟨rfl, ?_⟩⟩
    · unfold bufCloneBytes
      dsimp only [Ptr.addr]
      rw [run, Outcome.ret_bind]
      exact if_pos rfl
    · exact fun c member => kept_untouched s.heap h1 mem bufs bufs1 s.live (c + 1) c (kept (c + 1)) held member (by omega) info
  · have header : SIZEOF_BUF = 46 := rfl
    have limit : BUF_BLOCK_SIZE = 32768 := rfl
    have lead_eq := lead_nat s.heap a proper
    have rounded := round_reserve_nat (BitVec.ofInt 32 (s.heap.dstart (.mem a) - (a + SIZEOF_BUF)))
    have asked_eq : (BitVec.ofInt 32 (s.heap.buflen (.mem a) - SIZEOF_BUF)).toNat = s.heap.buflen (.mem a) - SIZEOF_BUF := by
      rw [BitVec.toNat_ofInt]
      omega
    have enough := alloc_size_large (BitVec.ofInt 32 (s.heap.buflen (.mem a) - SIZEOF_BUF)) (by omega)
    have done := copied_contents s.heap h1 mem bufs bufs1 free1 s.live a x _ _ (s.heap.dend (.mem a) - s.heap.dstart (.mem a))
      granted (place placed) held inside info proper rfl (by omega)
    obtain ⟨_, _, start, stop⟩ := live_kept s.heap bufs s.live a h1 bufs1 free1 x _ _ granted held inside
    refine ⟨.mem x, _, _, ?_, Or.inr ⟨x, rfl, ⟨done.data, done.proper, ?_, done.one, done.fresh, ?_⟩⟩⟩
    · unfold bufCloneBytes
      dsimp only [Ptr.addr]
      rw [run, Outcome.ret_bind]
      dsimp only
      rw [if_neg (fun same => by cases same), used_long s.heap h1 a proper start stop, done.copy, granted.stop]
      rfl
    · have front := done.start
      have same : (copiedHeap h1 a x (s.heap.dend (.mem a) - s.heap.dstart (.mem a))).dstart (.mem x) = h1.dstart (.mem x) := rfl
      rw [lead, lead, same, front]
      omega
    · exact fun c out => ⟨(done.others c out).2.1, (done.others c out).2.2⟩

theorem round_signed (reserve : BitVec 32) (positive : 0 ≤ reserve.toInt) :
    (reserve.toNat < 2 ^ 31 - 1 ∧ (roundReserve reserve).toInt = ((reserve.toNat + 1) / 2 * 2 : Nat)) ∨
      (reserve.toNat = 2 ^ 31 - 1 ∧ (roundReserve reserve).toInt = -2 ^ 31) := by
  have rounded := round_reserve_nat reserve
  have plain := BitVec.toInt_eq_toNat_cond reserve
  have signed := BitVec.toInt_eq_toNat_cond (roundReserve reserve)
  have bound := reserve.isLt
  by_cases most : reserve.toNat = 2 ^ 31 - 1
  · right
    refine ⟨most, ?_⟩
    rw [signed, if_neg (by omega)]
    omega
  · left
    have less : reserve.toNat < 2 ^ 31 - 1 := by
      split at plain <;> omega
    refine ⟨less, ?_⟩
    rw [signed, if_pos (by omega)]
    omega

-- Without a wrap the space asked for is what is kept together with the rounded reserve.
theorem reserve_space_fits (h : Heap) (a : Nat) (reserve : BitVec 32) (atEnd : Bool) (positive : 0 ≤ reserve.toInt)
    (proper : sanityCheck h a = true) (fit : fits h a reserve atEnd = true) :
    reserveSpace h (.mem a) (roundReserve reserve) atEnd = asked h a reserve atEnd ∧
      (roundReserve reserve).toInt = ((reserve.toNat + 1) / 2 * 2 : Nat) ∧ reserve.toNat < 2 ^ 31 - 1 := by
  obtain ⟨first, order, last, small⟩ := sanity_bounds h a proper
  have less := of_decide_eq_true fit
  have limit : BUF_BLOCK_SIZE = 32768 := rfl
  have header : SIZEOF_BUF = 46 := rfl
  unfold asked at less ⊢
  rcases round_signed reserve positive with ⟨room, value⟩ | ⟨most, value⟩
  · refine ⟨?_, value, room⟩
    rw [reserveSpace, Ptr.addr, value]
    cases atEnd with
    | true =>
        simp only [if_true] at less ⊢
        rw [long_eq _ (by omega) (by omega)]
        omega
    | false =>
        simp only [Bool.false_eq_true, if_false] at less ⊢
        rw [long_eq _ (by omega) (by omega)]
        omega
  · omega

-- With a wrap it is negative, and the old buffer passes for large enough.
theorem reserve_space_wraps (h : Heap) (a : Nat) (reserve : BitVec 32) (atEnd : Bool) (positive : 0 ≤ reserve.toInt)
    (proper : sanityCheck h a = true) (wraps : ¬ fits h a reserve atEnd = true) :
    reserveSpace h (.mem a) (roundReserve reserve) atEnd < 0 ∧ 2 ^ 30 ≤ reserve.toInt := by
  obtain ⟨first, order, last, small⟩ := sanity_bounds h a proper
  have more : 2 ^ 31 ≤ asked h a reserve atEnd := Nat.le_of_not_lt fun less => wraps (decide_eq_true less)
  have plain := BitVec.toInt_eq_toNat_cond reserve
  have bound := reserve.isLt
  have limit : BUF_BLOCK_SIZE = 32768 := rfl
  have header : SIZEOF_BUF = 46 := rfl
  unfold asked at more
  have signed : reserve.toInt = reserve.toNat := by
    split at plain <;> omega
  have wide (z : Int) (low : 2 ^ 31 ≤ z) (high : z < 2 ^ 32) : long z < 0 := by
    rw [long, BitVec.toInt_ofInt, Int.bmod]
    omega
  rw [reserveSpace, Ptr.addr]
  rcases round_signed reserve positive with ⟨room, value⟩ | ⟨most, value⟩
  · rw [value]
    cases atEnd with
    | true =>
        simp only [if_true] at more ⊢
        exact ⟨wide _ (by omega) (by omega), by omega⟩
    | false =>
        simp only [Bool.false_eq_true, if_false] at more ⊢
        exact ⟨wide _ (by omega) (by omega), by omega⟩
  · rw [value]
    cases atEnd with
    | true =>
        simp only [if_true]
        rw [long_eq _ (by omega) (by omega)]
        exact ⟨by omega, by omega⟩
    | false =>
        simp only [Bool.false_eq_true, if_false]
        rw [long_eq _ (by omega) (by omega)]
        exact ⟨by omega, by omega⟩

theorem reserve_kept (h : Heap) (mem : Memory) (live : List Nat) (a : Nat) (reserve : BitVec 32) (atEnd : Bool)
    (positive : 0 ≤ reserve.toInt) (proper : sanityCheck h a = true) (fit : fits h a reserve atEnd = true)
    (room : reserveSpace h (.mem a) (roundReserve reserve) atEnd ≤ h.buflen (.mem a) - SIZEOF_BUF) :
    Reserved h h mem mem live a a reserve atEnd := by
  obtain ⟨first, order, last, small⟩ := sanity_bounds h a proper
  obtain ⟨space, value, less⟩ := reserve_space_fits h a reserve atEnd positive proper fit
  have plain := BitVec.toInt_eq_toNat_cond reserve
  rw [if_pos (by omega)] at plain
  rw [space, asked] at room
  refine ⟨⟨by omega, fun _ _ => rfl, rfl⟩, proper, ?_, fun _ => Int.le_refl _, fun _ => untouched_refl h mem a, fun no => absurd rfl no,
    fun c _ _ => untouched_refl h mem c⟩
  cases atEnd with
  | true =>
      simp only [if_true] at room ⊢
      rw [trail]
      omega
  | false =>
      simp only [Bool.false_eq_true, if_false] at room ⊢
      rw [lead]
      omega

-- The new buffer has room for the lead, the data and what is asked for.
theorem reserve_room_new (h : Heap) (a : Nat) (reserve : BitVec 32) (atEnd : Bool) (positive : 0 ≤ reserve.toInt)
    (proper : sanityCheck h a = true) (fit : fits h a reserve atEnd = true) :
    SIZEOF_BUF + (roundReserve (reserveLead h (.mem a) (roundReserve reserve) atEnd)).toNat
        + (h.dend (.mem a) - h.dstart (.mem a)) + (if atEnd then reserve.toNat else 0)
      ≤ allocSize (BitVec.ofInt 32 (reserveSpace h (.mem a) (roundReserve reserve) atEnd)) ∧
      (if atEnd then h.dstart (.mem a) - (a + SIZEOF_BUF) else reserve.toNat)
        ≤ (roundReserve (reserveLead h (.mem a) (roundReserve reserve) atEnd)).toNat := by
  obtain ⟨first, order, last, small⟩ := sanity_bounds h a proper
  obtain ⟨space, value, less⟩ := reserve_space_fits h a reserve atEnd positive proper fit
  have bound := of_decide_eq_true fit
  have header : SIZEOF_BUF = 46 := rfl
  have number : (BitVec.ofInt 32 (asked h a reserve atEnd : Int)).toNat = asked h a reserve atEnd := by
    rw [BitVec.toNat_ofInt]
    omega
  have enough := alloc_size_large (BitVec.ofInt 32 (asked h a reserve atEnd : Int)) (by omega)
  rw [space]
  rw [number] at enough
  generalize allocSize (BitVec.ofInt 32 (asked h a reserve atEnd : Int)) = size at enough ⊢
  rw [asked] at enough bound
  have once := round_reserve_nat reserve
  have lead_eq := lead_nat h a proper
  rw [reserveLead, Ptr.addr]
  cases atEnd with
  | true =>
      simp only [if_true] at enough bound ⊢
      have twice := round_reserve_nat (BitVec.ofInt 32 (h.dstart (.mem a) - (a + SIZEOF_BUF)))
      omega
  | false =>
      simp only [Bool.false_eq_true, if_false] at enough bound ⊢
      have twice := round_reserve_nat (roundReserve reserve)
      omega

-- The copy is done, and the old buffer's reference is dropped.
theorem reserved_new (h h1 : Heap) (mem : Memory) (live : List Nat) (a x lead' : Nat) (reserve : BitVec 32) (atEnd : Bool)
    (done : Copied h h1 mem live a x lead' (h.dend (.mem a) - h.dstart (.mem a))) (inside : a ∈ live)
    (counted : 0 < h.links (.mem a)) (plain : reserve.toInt = reserve.toNat) (first : a + SIZEOF_BUF ≤ h.dstart (.mem a))
    (enough : SIZEOF_BUF + lead' + (h.dend (.mem a) - h.dstart (.mem a)) + (if atEnd then reserve.toNat else 0)
      ≤ h1.buflen (.mem x))
    (front : (if atEnd then h.dstart (.mem a) - (a + SIZEOF_BUF) else reserve.toNat) ≤ lead') :
    Reserved h (bufDeref (copiedHeap h1 a x (h.dend (.mem a) - h.dstart (.mem a))) (.mem a)) mem
      (memcpy mem (h1.dstart (.mem x)) (h1.dstart (.mem a)) (h.dend (.mem a) - h.dstart (.mem a))) live a x reserve atEnd := by
  have other : a ≠ x := (done.others a inside).1
  have linksA := (done.others a inside).2.1.links
  have apart := deref_untouched ⟨copiedHeap h1 a x (h.dend (.mem a) - h.dstart (.mem a)), x :: live⟩
    (memcpy mem (h1.dstart (.mem x)) (h1.dstart (.mem a)) (h.dend (.mem a) - h.dstart (.mem a))) a
  have kept := apart x done.good (List.mem_cons_of_mem x inside) List.mem_cons_self (Ne.symm other)
  obtain ⟨_, dropped⟩ := deref_fields (copiedHeap h1 a x (h.dend (.mem a) - h.dstart (.mem a))) (.mem a) (by rwa [linksA])
  have start : (copiedHeap h1 a x (h.dend (.mem a) - h.dstart (.mem a))).dstart (.mem x) = x + SIZEOF_BUF + lead' := done.start
  have one : (copiedHeap h1 a x (h.dend (.mem a) - h.dstart (.mem a))).links (.mem x) = 1 := done.one
  have len : (copiedHeap h1 a x (h.dend (.mem a) - h.dstart (.mem a))).buflen (.mem x) = h1.buflen (.mem x) := rfl
  have data := done.data
  have sane := done.proper
  have good := done.good
  have others := done.others
  generalize copiedHeap h1 a x (h.dend (.mem a) - h.dstart (.mem a)) = h2 at *
  dsimp only at kept apart
  have stop : (bufDeref h2 (.mem a)).dend (.mem x) = (bufDeref h2 (.mem a)).dstart (.mem x)
      + (h.dend (.mem a) - h.dstart (.mem a)) := by
    rw [kept.stop, kept.start, data.length]
  refine ⟨⟨stop, fun i below => ?_, ?_⟩, ?_, ?_, fun back => ?_, fun same => absurd same (Ne.symm other), fun _ => ⟨done.fresh, ?_, ?_⟩,
    fun c out different => ?_⟩
  · rw [kept.start]
    exact data.bytes i below
  · rw [kept.info, data.info]
  · rw [sanityCheck, kept.start, kept.stop, kept.buflen]
    exact sane
  · rw [trail, lead, stop, kept.start, start, kept.buflen, len, plain]
    cases atEnd with
    | true =>
        simp only [if_true] at enough front ⊢
        omega
    | false =>
        simp only [Bool.false_eq_true, if_false] at enough front ⊢
        omega
  · subst back
    simp only [if_true] at front
    rw [lead, lead, kept.start, start]
    omega
  · rw [kept.links, one]
  · rw [dropped, linksA]
  · exact untouched_trans h h2 _ mem _ _ c (others c out).2.1
      (apart c good (List.mem_cons_of_mem x inside) (List.mem_cons_of_mem x out) different)

theorem reserve_holds (kmalloc : Kmalloc) (s : State) (mem : Memory) (a : Nat) (reserve : BitVec 32) (atEnd : Bool)
    (good : Good s) (ok : KmallocOk kmalloc) (inside : a ∈ s.live) (proper : sanityCheck s.heap a = true)
    (positive : 0 ≤ reserve.toInt) (fit : fits s.heap a reserve atEnd = true) : ReserveHolds kmalloc s mem a reserve atEnd := by
  intro fuel
  by_cases room : reserveSpace s.heap (.mem a) (roundReserve reserve) atEnd ≤ s.heap.buflen (.mem a) - SIZEOF_BUF
  · exact ⟨.mem a, s.heap, mem, if_pos room, Or.inr ⟨a, rfl, reserve_kept s.heap mem s.live a reserve atEnd positive proper fit room⟩⟩
  obtain ⟨bufs, free, inv, placed, held⟩ := good
  obtain ⟨⟨b, h1⟩, run⟩ := alloc_returns kmalloc
    (BitVec.ofInt 32 (reserveSpace s.heap (.mem a) (roundReserve reserve) atEnd))
    (reserveLead s.heap (.mem a) (roundReserve reserve) atEnd) false ok fuel s.heap bufs free inv
  obtain ⟨place, outcome⟩ := alloc_spec kmalloc _ _ false ok _ s.heap h1 b bufs free inv run
  have info := alloc_info kmalloc _ s.heap h1 _ _ false b run
  rcases outcome with ⟨rfl, bufs1, free1, inv1, kept⟩ | ⟨x, bufs1, free1, rfl, granted⟩
  · refine ⟨.null, h1, mem, ?_, Or.inl ⟨rfl, ?_⟩⟩
    · unfold bufReserveBytes
      dsimp only
      rw [if_neg room, run, Outcome.ret_bind]
      exact if_pos rfl
    · exact fun c member => kept_untouched s.heap h1 mem bufs bufs1 s.live (c + 1) c (kept (c + 1)) held member (by omega) info
  · obtain ⟨first, _⟩ := sanity_bounds s.heap a proper
    obtain ⟨enough, front⟩ := reserve_room_new s.heap a reserve atEnd positive proper fit
    have done := copied_contents s.heap h1 mem bufs bufs1 free1 s.live a x _ _ (s.heap.dend (.mem a) - s.heap.dstart (.mem a))
      granted (place placed) held inside info proper rfl (by omega)
    have long_used := used_long s.heap s.heap a proper rfl rfl
    have plain := BitVec.toInt_eq_toNat_cond reserve
    obtain ⟨_, _, less⟩ := reserve_space_fits s.heap a reserve atEnd positive proper fit
    rw [if_pos (by omega)] at plain
    have reserved := reserved_new s.heap h1 mem s.live a x _ reserve atEnd done inside (held.counted a inside) plain first
      (enough.trans granted.large) front
    refine ⟨.mem x, _, _, ?_, Or.inr ⟨x, rfl, reserved⟩⟩
    unfold bufReserveBytes
    dsimp only
    rw [if_neg room, run, Outcome.ret_bind]
    dsimp only
    rw [if_neg (fun same => by cases same), long_used, done.copy]
    rfl

theorem reserve_unserved (kmalloc : Kmalloc) (s : State) (mem : Memory) (a : Nat) (reserve : BitVec 32) (atEnd : Bool)
    (good : Good s) (inside : a ∈ s.live) (proper : sanityCheck s.heap a = true) (positive : 0 ≤ reserve.toInt)
    (wraps : ¬ fits s.heap a reserve atEnd = true) : ¬ ReserveHolds kmalloc s mem a reserve atEnd := by
  intro reserved
  obtain ⟨negative, large⟩ := reserve_space_wraps s.heap a reserve atEnd positive proper wraps
  obtain ⟨bufs, free, inv, placed, held⟩ := good
  obtain ⟨small, least⟩ := live_size s.heap bufs free s.live a inv held inside
  obtain ⟨first, order, last, _⟩ := sanity_bounds s.heap a proper
  obtain ⟨b, h', mem', run, result⟩ := reserved 0
  have served : bufReserveBytes kmalloc (0 + 2) s.heap mem (.mem a) reserve atEnd = .ret (.mem a, s.heap, mem) := by
    unfold bufReserveBytes
    exact if_pos (by omega)
  rw [served] at run
  cases run
  have limit : BUF_BLOCK_SIZE = 32768 := rfl
  rcases result with ⟨none, _⟩ | ⟨x, same, done⟩
  · cases none
  · cases same
    have space := done.space
    rw [trail, lead] at space
    split at space <;> omega

-- Every live buffer whose data lies inside of it. Only an amount that wraps the long passes unserved.
theorem buf_copies (kmalloc : Kmalloc) (s : State) (mem : Memory) (a : Nat) (reach : Reachable s) (ok : KmallocOk kmalloc)
    (inside : a ∈ s.live) (proper : sanityCheck s.heap a = true) :
    (∀ (reserve : BitVec 32) (atEnd : Bool), 0 ≤ reserve.toInt →
      (ReserveHolds kmalloc s mem a reserve atEnd ↔ fits s.heap a reserve atEnd = true)) ∧
      ∀ atomic, CloneHolds kmalloc s mem a atomic := by
  refine ⟨fun reserve atEnd positive => ⟨fun reserved => ?_, ?_⟩, fun atomic => clone_holds kmalloc s mem a atomic (reachable_good s reach) ok inside proper⟩
  · by_contra wraps
    exact reserve_unserved kmalloc s mem a reserve atEnd (reachable_good s reach) inside proper positive wraps reserved
  · exact fun fit => reserve_holds kmalloc s mem a reserve atEnd (reachable_good s reach) ok inside proper positive fit

-- One buffer of 100 bytes is out.
def oneOutState : State :=
  match bufAlloc oneBlock 2 oneBlockState.heap 100 0 false with
  | .ret result => handedOut [] result
  | _ => oneBlockState

theorem one_out_reachable : Reachable oneOutState :=
  .step oneBlock 2 oneBlockState _ (.alloc 100 0 false) one_block_reachable one_block_ok trivial rfl

theorem buf_copies_header : ReserveHolds oneBlock oneOutState (fun _ => 0) 65536 16 false :=
  ((buf_copies oneBlock oneOutState (fun _ => 0) 65536 one_out_reachable one_block_ok (by decide) (by decide)).1 16 false
    (by decide)).mpr (by decide)

-- The largest long is asked for, and the buffer comes back as it was.
theorem buf_reserve_wrapped : Reachable oneOutState ∧ KmallocOk oneBlock ∧ 65536 ∈ oneOutState.live ∧
    sanityCheck oneOutState.heap 65536 = true ∧ ¬ ReserveHolds oneBlock oneOutState (fun _ => 0) 65536 0x7fffffff false :=
  ⟨one_out_reachable, one_block_ok, by decide, by decide,
    reserve_unserved oneBlock oneOutState (fun _ => 0) 65536 0x7fffffff false (reachable_good oneOutState one_out_reachable)
      (by decide) (by decide) (by decide) (by decide)⟩

end MagxNet.Buf
