import MagxNet.Bpf.Records
import MagxNet.Buf.Contents

set_option autoImplicit false

namespace MagxNet.Bpf

open Bytes Buf

-- What buf_alloc puts in front of the data.
abbrev BPF_LEAD : Nat := SIZEOF_BUF + BPF_RESERVE / 2

-- What the buffer says of the bytes that lie in it.
structure Backed (m : Buf.State) (b : Queued) : Prop where
  live : b.addr ∈ m.live
  bound : b.addr + m.heap.buflen (.mem b.addr) < 2 ^ 32
  start : m.heap.dstart (.mem b.addr) = b.addr + BPF_LEAD
  stop : m.heap.dend (.mem b.addr) = b.addr + BPF_LEAD + b.bytes.length
  room : BPF_LEAD + b.bytes.length ≤ m.heap.buflen (.mem b.addr)

theorem backed_keeps (m m' : Buf.State) (b : Queued) (backed : Backed m b) (keeps : Keeps m.heap m'.heap b.addr)
    (live : b.addr ∈ m'.live) : Backed m' b :=
  ⟨live, keeps.buflen ▸ backed.bound, keeps.start.trans backed.start, keeps.stop.trans backed.stop, keeps.buflen ▸ backed.room⟩

structure Inv (s : Listening) : Prop where
  good : Good s.mem
  backed : ∀ k, ∀ b ∈ (s.bpf k).recvq, Backed s.mem b
  distinct : ∀ k, ((s.bpf k).recvq.map Queued.addr).Nodup
  apart : ∀ k k', k ≠ k' → ∀ b ∈ (s.bpf k).recvq, ∀ b' ∈ (s.bpf k').recvq, b.addr ≠ b'.addr
  formed : ∀ k, ∀ b ∈ (s.bpf k).recvq, WellFormed b

-- The buffers that are still queued when the queue of k has become front.
def Stays (s : Listening) (k : Nat) (front : List Queued) (b : Queued) : Prop :=
  ∃ k', b ∈ (s.bpf k').recvq ∧ (k' = k → b ∈ front)

section Queues

variable (s : Listening) (k : Nat)

theorem stays_mem (front : List Queued) (fewer : front.Sublist (s.bpf k).recvq) (b : Queued) (member : b ∈ front) : Stays s k front b :=
  ⟨k, fewer.subset member, fun _ => member⟩

theorem stays_other (front : List Queued) (k' : Nat) (other : k' ≠ k) (b : Queued) (member : b ∈ (s.bpf k').recvq) : Stays s k front b :=
  ⟨k', member, fun same => absurd same other⟩

-- The queue of k becomes front, or gets a buffer behind it.
structure Becomes (front tail : List Queued) (m' : Buf.State) : Prop where
  fewer : front.Sublist (s.bpf k).recvq
  good : Good m'
  keeps : ∀ b, Stays s k front b → Keeps s.mem.heap m'.heap b.addr ∧ b.addr ∈ m'.live
  new : tail = [] ∨ ∃ b, tail = [b] ∧ Backed m' b ∧ WellFormed b ∧ ∀ b', Stays s k front b' → b'.addr ≠ b.addr

theorem inv_becomes (inv : Inv s) (front tail : List Queued) (m' : Buf.State) (becomes : Becomes s k front tail m') (d : Desc)
    (queue : d.recvq = front ++ tail) : Inv ({ s with mem := m' }.setBpf k d) := by
  have here : ∀ b ∈ front ++ tail, Backed m' b ∧ WellFormed b := by
    intro b member
    rcases List.mem_append.mp member with old | added
    · obtain ⟨keeps, live⟩ := becomes.keeps b (stays_mem s k front becomes.fewer b old)
      have before := becomes.fewer.subset old
      exact ⟨backed_keeps s.mem m' b (inv.backed k b before) keeps live, inv.formed k b before⟩
    · rcases becomes.new with rfl | ⟨new, rfl, backed, formed, _⟩
      · cases added
      · rw [List.mem_singleton.mp added]
        exact ⟨backed, formed⟩
  have there : ∀ k', k' ≠ k → ∀ b ∈ (s.bpf k').recvq, Backed m' b := by
    intro k' other b member
    obtain ⟨keeps, live⟩ := becomes.keeps b (stays_other s k front k' other b member)
    exact backed_keeps s.mem m' b (inv.backed k' b member) keeps live
  have single : ((front ++ tail).map Queued.addr).Nodup := by
    rw [List.map_append]
    refine List.Nodup.append ((becomes.fewer.map _).nodup (inv.distinct k)) ?_ ?_
    · rcases becomes.new with rfl | ⟨new, rfl, _⟩
      · exact List.nodup_nil
      · exact List.nodup_singleton _
    · intro a first second
      rcases becomes.new with rfl | ⟨new, rfl, _, _, unlike⟩
      · cases second
      · obtain ⟨b, member, rfl⟩ := List.mem_map.mp first
        exact unlike b (stays_mem s k front becomes.fewer b member) (List.mem_singleton.mp second)
  have cross : ∀ k', k' ≠ k → ∀ b ∈ front ++ tail, ∀ b' ∈ (s.bpf k').recvq, b.addr ≠ b'.addr := by
    intro k' other b member b' member'
    rcases List.mem_append.mp member with old | added
    · exact inv.apart k k' other.symm b (becomes.fewer.subset old) b' member'
    · rcases becomes.new with rfl | ⟨new, rfl, _, _, unlike⟩
      · cases added
      · rw [List.mem_singleton.mp added]
        exact (unlike b' (stays_other s k front k' other b' member')).symm
  have at' : ∀ k', (({ s with mem := m' }.setBpf k d).bpf k').recvq = if k' = k then front ++ tail else (s.bpf k').recvq := by
    intro k'
    rw [Listening.setBpf]
    dsimp only
    by_cases same : k' = k
    · rw [same, Function.update_self, if_pos rfl, queue]
    · rw [Function.update_of_ne same, if_neg same]
  refine ⟨becomes.good, fun k' b member => ?_, fun k' => ?_, fun k1 k2 other b member b' member' => ?_, fun k' b member => ?_⟩
  · rw [at'] at member
    split at member
    · exact (here b member).1
    · rename_i other
      exact there k' other b member
  · rw [at']
    split
    · exact single
    · exact inv.distinct k'
  · rw [at'] at member member'
    split at member
    · rename_i first
      rw [if_neg fun second => other (first.trans second.symm)] at member'
      exact cross k2 (fun second => other (first.trans second.symm)) b member b' member'
    · rename_i first
      split at member'
      · exact (cross k1 first b' member' b member).symm
      · exact inv.apart k1 k2 other b member b' member'
  · rw [at'] at member
    split at member
    · exact (here b member).2
    · exact inv.formed k' b member

-- A buffer that a record can be written to.
structure Ready (front : List Queued) (b : Queued) (m' : Buf.State) (caplen : Nat) : Prop where
  fewer : front.Sublist (s.bpf k).recvq
  good : Good m'
  keeps : ∀ b', Stays s k front b' → Keeps s.mem.heap m'.heap b'.addr ∧ b'.addr ∈ m'.live ∧ b'.addr ≠ b.addr
  backed : Backed m' b
  space : BPF_LEAD + b.bytes.length + caplen ≤ m'.heap.buflen (.mem b.addr)
  short : b.bytes.length + caplen ≤ BPF_READBUF
  before : (b.bytes = [] ∧ b.taken = []) ∨ ∃ old pad, b.bytes = old ++ pad ∧ records old = some (b.taken.map expected) ∧
    old.length + pad.length = wordalign old.length

theorem stays_live (inv : Inv s) (front : List Queued) (b : Queued) (stays : Stays s k front b) : b.addr ∈ s.mem.live := by
  obtain ⟨k', member, _⟩ := stays
  exact (inv.backed k' b member).live

theorem set_dend_keeps (h : Heap) (a stop c : Nat) (other : c ≠ a) : Keeps h (setDend h a stop) c :=
  ⟨rfl, rfl, Function.update_of_ne (fun same => other (mem_injective same)) ..⟩

theorem backed_trail (m : Buf.State) (b : Queued) (backed : Backed m b) :
    (trailSpace m.heap b.addr).toNat + (BPF_LEAD + b.bytes.length) = m.heap.buflen (.mem b.addr) := by
  have := backed.bound
  have := backed.room
  rw [trailSpace, backed.stop, BitVec.toNat_ofInt]
  omega

-- The last buffer of the queue has got room.
theorem last_ready (inv : Inv s) (b : Queued) (last : (s.bpf k).recvq.getLast? = some b) (caplen : Word)
    (room : fits s.mem.heap b.addr caplen) (pad : Buffer)
    (filled : b.bytes.length + pad.length = wordalign b.bytes.length)
    (short : wordalign b.bytes.length + caplen.toNat ≤ BPF_READBUF) :
    Ready s k (s.bpf k).recvq.dropLast { b with bytes := b.bytes ++ pad }
      { s.mem with heap := setDend s.mem.heap b.addr (add32 (s.mem.heap.dstart (.mem b.addr)) (wordalign b.bytes.length)) } caplen.toNat := by
  have member := List.mem_of_getLast? last
  have backed := inv.backed k b member
  have trail := backed_trail s.mem b backed
  have enough : caplen.toNat + 54 ≤ (trailSpace s.mem.heap b.addr).toNat := of_decide_eq_true room
  have bound := backed.bound
  have aligned := wordalign_eq b.bytes.length
  have lead : BPF_LEAD = 96 := rfl
  have header : SIZEOF_BUF = 46 := rfl
  have stop : add32 (s.mem.heap.dstart (.mem b.addr)) (wordalign b.bytes.length) = b.addr + BPF_LEAD + wordalign b.bytes.length := by
    rw [add32, backed.start]
    omega
  have layout : (s.bpf k).recvq = (s.bpf k).recvq.dropLast ++ [b] := (List.dropLast_append_getLast? b last).symm
  have unlike : ∀ b', Stays s k (s.bpf k).recvq.dropLast b' → b'.addr ≠ b.addr := by
    rintro b' ⟨k', inside, old⟩
    by_cases same : k' = k
    · have distinct := inv.distinct k
      rw [layout, List.map_append] at distinct
      exact fun equal => (List.nodup_append.mp distinct).2.2 _ (List.mem_map_of_mem (old same)) _ (List.mem_singleton_self _) equal
    · exact inv.apart k' k same b' inside b member
  rw [stop]
  refine ⟨List.dropLast_sublist _, ?_, fun b' stays => ⟨?_, stays_live s k inv _ b' stays, unlike b' stays⟩, ?_, ?_, ?_, ?_⟩
  · exact set_dend_good s.mem b.addr _ inv.good backed.live (by rw [backed.start]; omega) (by rw [backed.start]; omega) (by omega)
  · exact set_dend_keeps s.mem.heap b.addr _ b'.addr (unlike b' stays)
  · refine ⟨backed.live, bound, backed.start, ?_, ?_⟩
    · dsimp only [setDend]
      rw [Function.update_self, List.length_append, filled]
    · dsimp only [setDend]
      rw [List.length_append]
      omega
  · dsimp only [setDend]
    rw [List.length_append]
    omega
  · rw [List.length_append]
    omega
  · exact Or.inr ⟨b.bytes, pad, rfl, (inv.formed k b member).parsed, filled⟩

theorem no_kmalloc_ok : KmallocOk fun _ => none := by
  intro blocks addr found
  cases found

theorem atomic_returns (h : Heap) (size reserve : BitVec 32) : ∃ result, bufAlloc (fun _ => none) 1 h size reserve true = .ret result := by
  rw [bufAlloc]
  cases sizeIndex (allocSize size) (BUF_NSPLIT + 1) with
  | none => exact ⟨_, rfl⟩
  | some idx =>
      dsimp only
      rw [bufTryAlloc]
      cases searchFree h (idx + 1) with
      | some i => exact ⟨_, rfl⟩
      | none => exact ⟨_, rfl⟩

-- A buffer is allocated.
theorem new_ready (inv : Inv s) (a : Nat) (h' : Heap) (caplen : Word) (small : caplen.toNat ≤ BPF_READBUF - BPF_ALIGNMENT)
    (keeps : ∀ c ∈ s.mem.live, Keeps s.mem.heap h' c) (good : Good ⟨h', a :: s.mem.live⟩)
    (gets : Gets h' s.mem.live a (allocSize (caplen + BitVec.ofNat 32 BPF_RESERVE)) (roundReserve (BitVec.ofNat 32 (BPF_RESERVE / 2)))) :
    Ready s k (s.bpf k).recvq ⟨a, [], []⟩ ⟨h', a :: s.mem.live⟩ caplen.toNat := by
  have lead : BPF_LEAD = 96 := rfl
  have header : SIZEOF_BUF = 46 := rfl
  have limit : BPF_READBUF - BPF_ALIGNMENT = 8188 := rfl
  have most : BPF_READBUF = 8192 := rfl
  have spare : (BitVec.ofNat 32 BPF_RESERVE).toNat = 100 := rfl
  have asked : (caplen + BitVec.ofNat 32 BPF_RESERVE).toNat = caplen.toNat + 100 := by
    rw [BitVec.toNat_add, spare]
    omega
  have large := alloc_size_large (caplen + BitVec.ofNat 32 BPF_RESERVE) (by omega)
  have granted := gets.large
  have bound := gets.bound
  have reserve : (roundReserve (BitVec.ofNat 32 (BPF_RESERVE / 2))).toNat = 50 := by decide
  have start : h'.dstart (.mem a) = a + BPF_LEAD := by
    rw [gets.start, reserve, add32]
    omega
  refine ⟨List.Sublist.refl _, good, fun b' stays => ?_, ⟨List.mem_cons_self .., bound, start, ?_, ?_⟩, ?_, ?_, Or.inl ⟨rfl, rfl⟩⟩
  · have live := stays_live s k inv _ b' stays
    refine ⟨keeps _ live, List.mem_cons_of_mem _ live, fun same => gets.fresh ?_⟩
    rwa [same] at live
  · exact gets.stop.trans start
  · dsimp only [List.length_nil]
    omega
  · dsimp only [List.length_nil]
    omega
  · dsimp only [List.length_nil]
    omega

-- The condition on the last buffer of the queue: with the record it is not too long to be read.
def Short (caplen : Word) : Prop :=
  ∀ b, (s.bpf k).recvq.getLast? = some b → fits s.mem.heap b.addr caplen →
    wordalign (s.mem.heap.dend (.mem b.addr) - s.mem.heap.dstart (.mem b.addr)) + caplen.toNat ≤ BPF_READBUF

theorem same_becomes (inv : Inv s) (m' : Buf.State) (good : Good m')
    (keeps : ∀ c ∈ s.mem.live, Keeps s.mem.heap m'.heap c ∧ c ∈ m'.live) : Becomes s k (s.bpf k).recvq [] m' :=
  ⟨List.Sublist.refl _, good, fun b stays => keeps _ (stays_live s k inv _ b stays), Or.inl rfl⟩

theorem place_spec (inv : Inv s) (env : Arrival) (caplen : Word) (small : caplen.toNat ≤ BPF_READBUF - BPF_ALIGNMENT)
    (short : Short s k caplen) : ∃ r m', place env s.mem (s.bpf k).recvq caplen = .ret (r, m') ∧
      (r = none → Becomes s k (s.bpf k).recvq [] m') ∧ ∀ front b, r = some (front, b) → Ready s k front b m' caplen.toNat := by
  rw [place]
  cases found : (s.bpf k).recvq.getLast?.filter fun b => fits s.mem.heap b.addr caplen with
  | some b =>
      obtain ⟨last, room⟩ := Option.filter_eq_some_iff.mp found
      have backed := inv.backed k b (List.mem_of_getLast? last)
      have length : s.mem.heap.dend (.mem b.addr) - s.mem.heap.dstart (.mem b.addr) = b.bytes.length := by
        rw [backed.stop, backed.start]
        omega
      have bounded := short b last room
      rw [length] at bounded
      dsimp only
      rw [length]
      refine ⟨_, _, rfl, fun none => (by cases none), fun front b' same => ?_⟩
      cases same
      refine last_ready s k inv b last caplen room _ ?_ bounded
      have aligned := wordalign_eq b.bytes.length
      rw [List.length_map, List.length_range]
      omega
  | none =>
      dsimp only
      by_cases full : BPF_MAXPACKETS ≤ (s.bpf k).recvq.length
      · rw [if_pos full]
        exact ⟨_, _, rfl, fun _ => same_becomes s k inv s.mem inv.good fun c live => ⟨keeps_refl _ c, live⟩, fun front b same => by cases same⟩
      · rw [if_neg full]
        obtain ⟨⟨b, h'⟩, run⟩ := atomic_returns s.mem.heap (caplen + BitVec.ofNat 32 BPF_RESERVE) (BitVec.ofNat 32 (BPF_RESERVE / 2))
        obtain ⟨keeps, result⟩ := alloc_keeps _ no_kmalloc_ok 1 s.mem _ _ true b h' inv.good run
        rw [run]
        rcases result with ⟨rfl, good⟩ | ⟨a, rfl, good, gets⟩
        · exact ⟨_, _, rfl, fun _ => same_becomes s k inv _ good fun c live => ⟨keeps c live, live⟩, fun front b same => by cases same⟩
        · dsimp only [Outcome.bind]
          rw [if_neg full]
          refine ⟨_, _, rfl, fun none => (by cases none), fun front b same => ?_⟩
          cases same
          exact new_ready s k inv a h' caplen small keeps good gets

-- The record is written.
theorem store_spec (env : Arrival) (d : Desc) (c : Capture) (caplen : Word) (len : caplen.toNat = BPF_HDRLEN + capped c)
    (front : List Queued) (b : Queued) (m' : Buf.State) (ready : Ready s k front b m' caplen.toNat) :
    ∃ b' m'', store env m' d c.packet c.snaplen caplen b = .ret (b', m'') ∧ Becomes s k front [b'] m'' := by
  have backed := ready.backed
  have space := ready.space
  have short := ready.short
  have bound := backed.bound
  have lead : BPF_LEAD = 96 := rfl
  have header' : SIZEOF_BUF = 46 := rfl
  have head : BPF_HDRLEN = 20 := rfl
  have most : BPF_READBUF = 8192 := rfl
  have stop : m'.heap.dend (.mem b.addr) + caplen.toNat = b.addr + BPF_LEAD + b.bytes.length + caplen.toNat := by rw [backed.stop]
  have inside : capped c ≤ c.packet.bytes.length := (min_le_left _ _).trans (min_le_right _ _)
  have less : caplen - BitVec.ofNat 32 BPF_HDRLEN = BitVec.ofNat 32 (capped c) := by
    apply BitVec.eq_of_toNat_eq
    rw [BitVec.toNat_sub, BitVec.toNat_ofNat, BitVec.toNat_ofNat]
    omega
  have record := header_record env d (BitVec.ofNat 32 c.packet.bytes.length) c.packet.bytes (capped c) inside (by omega)
  have size : (header env d (BitVec.ofNat 32 c.packet.bytes.length) (BitVec.ofNat 32 (capped c)) ++
      snapshot env c.packet.bytes (capped c)).length = caplen.toNat := by
    rw [record.length, len, BitVec.toNat_ofNat]
    omega
  rw [store]
  dsimp only
  rw [stop, if_neg (by omega), less, len, Nat.add_sub_cancel_left, ← len]
  refine ⟨_, _, rfl, ready.fewer, ?_, fun b' stays => ?_, Or.inr ⟨_, rfl, ?_, ⟨?_, ?_⟩, fun b' stays => (ready.keeps b' stays).2.2⟩⟩
  · exact set_dend_good m' b.addr _ ready.good backed.live (by rw [backed.start]; omega) (by rw [backed.start]; omega) (by omega)
  · obtain ⟨keeps, live, other⟩ := ready.keeps b' stays
    exact ⟨keeps_trans _ _ _ _ keeps (set_dend_keeps m'.heap b.addr _ b'.addr other), live⟩
  · refine ⟨backed.live, bound, backed.start, ?_, ?_⟩
    · dsimp only [setDend]
      rw [Function.update_self, List.length_append, size]
      omega
    · dsimp only [setDend]
      rw [List.length_append, size]
      omega
  · dsimp only
    rw [List.length_append, size]
    omega
  · dsimp only
    rw [List.map_append, List.map_singleton]
    rcases ready.before with ⟨none, nothing⟩ | ⟨old, pad, layout, parsed, filled⟩
    · rw [none, nothing]
      exact records_record _ _ record
    · rw [layout, List.append_assoc]
      exact records_append old pad _ _ _ parsed filled record

end Queues

end MagxNet.Bpf
