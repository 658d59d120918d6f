import MagxNet.Bpf.Stream

set_option autoImplicit false

namespace MagxNet.Bpf

open Bytes Buf

-- What the rest of the kernel does: buffers of other holders come and go, and queues may be flushed.
structure Others (s s' : Listening) : Prop where
  good : Good s'.mem
  fewer : ∀ k, (s'.bpf k).recvq.Sublist (s.bpf k).recvq
  keeps : ∀ k, ∀ b ∈ (s'.bpf k).recvq, Keeps s.mem.heap s'.mem.heap b.addr ∧ b.addr ∈ s'.mem.live

-- The states that the arrivals allowed, the reads and the rest of the kernel lead to.
inductive Reached (allowed : Arrival → Packet → List Nat → Listening → Prop) : Listening → Prop
  | start (s : Listening) (reach : Reachable s.mem) (empty : ∀ k, (s.bpf k).recvq = []) : Reached allowed s
  | input (env : Arrival) (p : Packet) (nif : List Nat) (s s' : Listening) (reached : Reached allowed s) (yes : allowed env p nif s)
      (run : bpfInput env p nif s = .ret s') : Reached allowed s'
  | read (s : Listening) (k : Nat) (nbytes : Int) (ndelay : Bool) (reached : Reached allowed s) : Reached allowed (bpfRead s k nbytes ndelay).2
  | readOn (s : Listening) (k : Nat) (interrupted : Bool) (reached : Reached allowed s) : Reached allowed (bpfReadOn s k interrupted).2
  | others (s s' : Listening) (reached : Reached allowed s) (changed : Others s s') : Reached allowed s'

-- bpf_read returns b.
def Returned (s : Listening) (k : Nat) (b : Queued) : Prop :=
  (∃ nbytes ndelay, (bpfRead s k nbytes ndelay).1 = .data b) ∨ ∃ interrupted, (bpfReadOn s k interrupted).1 = .data b

def MeetsAt (env : Arrival) (p : Packet) (s : Listening) (k : Nat) : Prop :=
  (s.bpf k).isOpen → env.result k ≠ 0 →
    Signed ⟨p, env.result k⟩ ∧ Short s k (capLen (env.result k) (BitVec.ofNat 32 p.bytes.length))

-- Each descriptor meets the condition when its turn comes.
def AllMeet (env : Arrival) (p : Packet) : List Nat → Listening → Prop
  | [], _ => True
  | k :: rest, s => MeetsAt env p s k ∧ ∀ s', capture env p s k = .ret s' → AllMeet env p rest s'

section Steps

variable (s : Listening)

theorem capture_spec (inv : Inv s) (env : Arrival) (p : Packet) (k : Nat) (meets : MeetsAt env p s k) :
    ∃ s', capture env p s k = .ret s' ∧ Inv s' := by
  have same : ∀ d : Desc, d.recvq = (s.bpf k).recvq → Inv (s.setBpf k d) := fun d queue =>
    inv_becomes s k inv _ [] s.mem (same_becomes s k inv s.mem inv.good fun c live => ⟨keeps_refl _ c, live⟩) d
      (queue.trans (List.append_nil _).symm)
  rw [capture]
  by_cases listens : (s.bpf k).isOpen = true
  · dsimp only
    rw [if_neg (not_not_intro listens)]
    by_cases none : env.result k = 0
    · rw [if_pos none]
      exact ⟨_, rfl, same _ rfl⟩
    · rw [if_neg none]
      obtain ⟨signed, short⟩ := meets listens none
      have len := cap_len ⟨p, env.result k⟩ signed
      have small : capped ⟨p, env.result k⟩ ≤ BPF_MAXCAP := min_le_right _ _
      obtain ⟨r, m', placed, dropped, ready⟩ := place_spec s k inv env _ (by rw [len]; exact Nat.add_le_add_left small _) short
      rw [placed]
      cases r with
      | none => exact ⟨_, rfl, inv_becomes s k inv _ [] m' (dropped rfl) _ (List.append_nil _).symm⟩
      | some r =>
          obtain ⟨front, b⟩ := r
          obtain ⟨b', m'', stored, becomes⟩ := store_spec s k env { s.bpf k with inPkts := (s.bpf k).inPkts + 1 } ⟨p, env.result k⟩ _ len
            front b m' (ready front b rfl)
          dsimp only [Outcome.bind]
          rw [stored]
          exact ⟨_, rfl, inv_becomes s k inv front [b'] m'' becomes _ rfl⟩
  · dsimp only
    rw [if_pos listens]
    exact ⟨_, rfl, inv⟩

theorem dequeue_inv (inv : Inv s) (k : Nat) (b : Queued) (rest : List Queued) (queue : (s.bpf k).recvq = b :: rest) :
    Inv (dequeue s k b rest) := by
  have member : b ∈ (s.bpf k).recvq := queue ▸ List.mem_cons_self ..
  obtain ⟨good, keeps⟩ := deref_keeps s.mem b.addr inv.good (inv.backed k b member).live
  have unlike : ∀ b', Stays s k rest b' → b'.addr ≠ b.addr := by
    rintro b' ⟨k', inside, old⟩
    by_cases same : k' = k
    · have distinct := inv.distinct k
      rw [queue, List.map_cons] at distinct
      exact fun equal => (List.nodup_cons.mp distinct).1 (equal ▸ List.mem_map_of_mem (old same))
    · exact inv.apart k' k same b' inside b member
  refine inv_becomes s k inv rest [] _ ⟨?_, good, fun b' stays => ?_, Or.inl rfl⟩ _ (List.append_nil _).symm
  · rw [queue]
    exact List.sublist_cons_self ..
  · exact keeps _ (stays_live s k inv rest b' stays) (unlike b' stays)

theorem others_inv (inv : Inv s) (s' : Listening) (changed : Others s s') : Inv s' := by
  have old : ∀ k, ∀ b ∈ (s'.bpf k).recvq, b ∈ (s.bpf k).recvq := fun k b member => (changed.fewer k).subset member
  refine ⟨changed.good, fun k b member => ?_, fun k => ((changed.fewer k).map _).nodup (inv.distinct k),
    fun k k' other b member b' member' => inv.apart k k' other b (old k b member) b' (old k' b' member'),
    fun k b member => inv.formed k b (old k b member)⟩
  obtain ⟨keeps, live⟩ := changed.keeps k b member
  exact backed_keeps s.mem s'.mem b (inv.backed k b (old k b member)) keeps live

-- A read takes the first buffer of the queue, or none.
theorem read_inv (inv : Inv s) (k : Nat) (nbytes : Int) (ndelay : Bool) : Inv (bpfRead s k nbytes ndelay).2 ∧
    ∀ b, (bpfRead s k nbytes ndelay).1 = .data b → WellFormed b := by
  rw [bpfRead]
  split
  · exact ⟨inv, fun b none => by cases none⟩
  · split
    · exact ⟨inv, fun b none => by cases none⟩
    · split
      · rename_i b rest queue
        refine ⟨dequeue_inv s inv k b rest queue, fun b' same => ?_⟩
        cases same
        exact inv.formed k b (queue ▸ List.mem_cons_self ..)
      · split
        · exact ⟨inv, fun b none => by cases none⟩
        · exact ⟨inv, fun b none => by cases none⟩

theorem read_on_inv (inv : Inv s) (k : Nat) (interrupted : Bool) : Inv (bpfReadOn s k interrupted).2 ∧
    ∀ b, (bpfReadOn s k interrupted).1 = .data b → WellFormed b := by
  rw [bpfReadOn]
  split
  · exact ⟨inv, fun b none => by cases none⟩
  · split
    · rename_i b rest queue
      refine ⟨dequeue_inv s inv k b rest queue, fun b' same => ?_⟩
      cases same
      exact inv.formed k b (queue ▸ List.mem_cons_self ..)
    · exact ⟨inv, fun b none => by cases none⟩

end Steps

-- The loop over the descriptors.
theorem input_spec (env : Arrival) (p : Packet) (nif : List Nat) : ∀ s, Inv s → AllMeet env p nif s →
    ∃ s', bpfInput env p nif s = .ret s' ∧ Inv s' := by
  induction nif with
  | nil => exact fun s inv _ => ⟨s, rfl, inv⟩
  | cons k rest next =>
      intro s inv meets
      obtain ⟨s1, run, inv1⟩ := capture_spec s inv env p k meets.1
      rw [bpfInput, run]
      exact next s1 inv1 (meets.2 s1 run)

theorem reached_inv (s : Listening) (reached : Reached (fun env p nif s => AllMeet env p nif s) s) : Inv s := by
  induction reached with
  | start s reach empty =>
      have none : ∀ k b, b ∉ (s.bpf k).recvq := fun k b member => by
        rw [empty k] at member
        cases member
      exact ⟨reachable_good s.mem reach, fun k b member => absurd member (none k b), fun k => by rw [empty k]; exact List.nodup_nil,
        fun k k' _ b member => absurd member (none k b), fun k b member => absurd member (none k b)⟩
  | input env p nif s s' _ yes run inv =>
      obtain ⟨s1, run1, inv1⟩ := input_spec env p nif s inv yes
      rw [run] at run1
      cases run1
      exact inv1
  | read s k nbytes ndelay _ inv => exact (read_inv s inv k nbytes ndelay).1
  | readOn s k interrupted _ inv => exact (read_on_inv s inv k interrupted).1
  | others s s' _ changed inv => exact others_inv s inv s' changed

theorem capture_stream (s : Listening) (reached : Reached (fun env p nif s => AllMeet env p nif s) s) :
    (∀ k b, Returned s k b → WellFormed b) ∧ ∀ env p nif, AllMeet env p nif s → ∃ s', bpfInput env p nif s = .ret s' := by
  have inv := reached_inv s reached
  refine ⟨fun k b returned => ?_, fun env p nif meets => ?_⟩
  · rcases returned with ⟨nbytes, ndelay, data⟩ | ⟨interrupted, data⟩
    · exact (read_inv s inv k nbytes ndelay).2 b data
    · exact (read_on_inv s inv k interrupted).2 b data
  · obtain ⟨s', run, _⟩ := input_spec env p nif s inv meets
    exact ⟨s', run⟩

theorem set_bpf_self (s : Listening) (k : Nat) (d : Desc) : (s.setBpf k d).bpf k = d := Function.update_self ..

-- From -BPF_HDRLEN to -1, and so without a filter, which counts as -1, the snapshot has no length: nothing is captured, and
-- what would have been is a copy over all memory.
theorem negative_not_captured (env : Arrival) (p : Packet) (s s' : Listening) (k : Nat) (negative : 2 ^ 32 ≤ (env.result k).toNat + BPF_HDRLEN)
    (run : capture env p s k = .ret s') : (s'.bpf k).recvq = (s.bpf k).recvq := by
  have head : BPF_HDRLEN = 20 := rfl
  have limit : BPF_READBUF - BPF_ALIGNMENT = 8188 := rfl
  have short := p.short
  have low : (capLen (env.result k) (BitVec.ofNat 32 p.bytes.length)).toNat < BPF_HDRLEN := by
    have less : (env.result k).toInt < (BitVec.ofNat 32 p.bytes.length).toInt := by
      rw [BitVec.toInt_eq_toNat_cond, BitVec.toInt_eq_toNat_cond, BitVec.toNat_ofNat]
      split <;> split <;> omega
    have sum : (BitVec.ofNat 32 BPF_HDRLEN + env.result k).toNat = (env.result k).toNat + BPF_HDRLEN - 2 ^ 32 := by
      rw [BitVec.toNat_add, BitVec.toNat_ofNat]
      omega
    rw [capLen, if_pos less, if_neg (by omega), sum]
    omega
  rw [capture] at run
  split at run
  · cases run
    rfl
  · dsimp only at run
    split at run
    · cases run
      rw [set_bpf_self]
    · obtain ⟨⟨r, m'⟩, _, rest⟩ := (Outcome.bind_eq_ret _ _ _).mp run
      cases r with
      | none =>
          cases rest
          rw [set_bpf_self]
      | some r =>
          obtain ⟨front, b⟩ := r
          obtain ⟨_, stored, _⟩ := (Outcome.bind_eq_ret _ _ _).mp rest
          rw [store, if_pos (Or.inl low)] at stored
          cases stored

section Sample

def oneBlock : Kmalloc := fun blocks => if blocks = [] then some 4096 else none

def noMemory : Heap where
  buflen _ := 0
  links _ := 0
  dstart _ := 0
  dend _ := 0
  info _ := 0
  n _ := .null
  p _ := .null
  nfree _ := .null
  pfree _ := .null
  memUsed := 0
  failedAllocs := 0
  bufTmout := false
  blocks := []

theorem one_block_ok : KmallocOk oneBlock := by
  intro blocks addr found
  rw [oneBlock] at found
  split at found
  · rename_i none
    cases found
    exact ⟨by decide, fun b member => absurd member (none ▸ List.not_mem_nil)⟩
  · cases found

def returned {α : Type} (x : α) : Outcome α → α
  | .ret x => x
  | _ => x

def doesReturn {α : Type} : Outcome α → Bool
  | .ret _ => true
  | _ => false

theorem returned_ret {α : Type} (x : α) (o : Outcome α) (does : doesReturn o = true) : o = .ret (returned x o) := by
  cases o with
  | ret x => rfl
  | fault => cases does
  | running => cases does

def firstMem : Buf.State := ⟨(bufInit oneBlock noMemory).2, []⟩

-- A buffer of 8300 bytes has been freed, and one behind it has not.
def holeOps : List Op := [.alloc 8300 0 false, .alloc 100 0 false, .free 4096]

def runOps (ops : List Op) (m : Buf.State) : Buf.State := ops.foldl (fun m op => returned m (op.run oneBlock 1 m)) m

def holeMem : Buf.State := runOps holeOps firstMem

theorem run_ops_reachable (ops : List Op) (m : Buf.State) (op : Op) (reach : Reachable (runOps ops m)) (allowed : op.Allowed (runOps ops m))
    (does : doesReturn (op.run oneBlock 1 (runOps ops m)) = true) : Reachable (runOps (ops ++ [op]) m) := by
  have run := returned_ret (runOps ops m) _ does
  rw [runOps, List.foldl_append]
  exact .step oneBlock 1 _ _ op reach one_block_ok allowed run

theorem hole_reachable : Reachable holeMem := by
  have facts : (bufInit oneBlock noMemory).1 = false ∧ doesReturn (Op.run oneBlock 1 (runOps [] firstMem) (.alloc 8300 0 false)) = true ∧
      doesReturn (Op.run oneBlock 1 (runOps [.alloc 8300 0 false] firstMem) (.alloc 100 0 false)) = true ∧
      4096 ∈ (runOps [.alloc 8300 0 false, .alloc 100 0 false] firstMem).live := by
    decide +kernel
  obtain ⟨added, first, second, live⟩ := facts
  have start : Reachable (runOps [] firstMem) := .init oneBlock noMemory _ one_block_ok rfl rfl (Prod.ext added rfl)
  have one := run_ops_reachable [] firstMem (.alloc 8300 0 false) start trivial first
  have two := run_ops_reachable [.alloc 8300 0 false] firstMem (.alloc 100 0 false) one trivial second
  exact run_ops_reachable [.alloc 8300 0 false, .alloc 100 0 false] firstMem (.free 4096) two live rfl

def listening : Listening := ⟨holeMem, fun _ => ⟨true, [], 0, 0, 0, 0⟩⟩

def wholePacket : Arrival := ⟨fun _ => 65535, 0, fun _ => 0, fun _ => 0⟩

def packetOf (n : Nat) (short : n < 2 ^ 31) : Packet := ⟨List.replicate n 0, by rwa [List.length_replicate]⟩

def largeOne : Packet := packetOf 8020 (by decide)

def smallOne : Packet := packetOf 136 (by decide)

def captured (s : Listening) (p : Packet) : Listening := returned s (bpfInput wholePacket p [0] s)

theorem captured_reached (allowed : Arrival → Packet → List Nat → Listening → Prop) (s : Listening) (p : Packet) (reached : Reached allowed s)
    (yes : allowed wholePacket p [0] s) (does : doesReturn (bpfInput wholePacket p [0] s) = true) : Reached allowed (captured s p) :=
  .input wholePacket p [0] s _ reached yes (returned_ret s _ does)

theorem head_returned (s : Listening) (k : Nat) (b : Queued) (rest : List Queued) (queue : (s.bpf k).recvq = b :: rest) : Returned s k b := by
  refine Or.inr ⟨false, ?_⟩
  rw [bpfReadOn, if_neg Bool.false_ne_true, queue]

-- The packet is captured, and read.
theorem capture_stream_one : ∃ b, Returned (captured listening largeOne) 0 b ∧ WellFormed b := by
  have facts : doesReturn (bpfInput wholePacket largeOne [0] listening) = true ∧ ((captured listening largeOne).bpf 0).recvq.length = 1 := by
    decide +kernel
  obtain ⟨does, one⟩ := facts
  have meets : AllMeet wholePacket largeOne [0] listening :=
    ⟨fun _ _ => ⟨Or.inl (by decide), fun b none => by cases none⟩, fun _ _ => trivial⟩
  have reached := captured_reached (fun env p nif s => AllMeet env p nif s) listening largeOne (.start listening hole_reachable fun _ => rfl) meets does
  obtain ⟨b, queue⟩ := List.length_eq_one_iff.mp one
  have back := head_returned _ 0 b [] queue
  exact ⟨b, back, (capture_stream _ reached).1 0 b back⟩

-- The next one is put behind it.
theorem capture_stream_long : ¬ ∀ s, Reached (fun _ _ _ _ => True) s → ∀ k b, Returned s k b → WellFormed b := by
  intro all
  have facts : doesReturn (bpfInput wholePacket largeOne [0] listening) = true ∧
      doesReturn (bpfInput wholePacket smallOne [0] (captured listening largeOne)) = true ∧
      ((captured (captured listening largeOne) smallOne).bpf 0).recvq.map (fun b => b.bytes.length) = [8196] := by
    decide +kernel
  obtain ⟨first, second, long⟩ := facts
  have one := captured_reached (fun _ _ _ _ => True) listening largeOne (.start listening hole_reachable fun _ => rfl) trivial first
  have two := captured_reached (fun _ _ _ _ => True) (captured listening largeOne) smallOne one trivial second
  obtain ⟨b, queue, length⟩ := List.map_eq_singleton_iff.mp long
  have formed := all _ two 0 b (head_returned _ 0 b [] queue)
  have short := formed.short
  rw [length] at short
  exact absurd short (by decide)

end Sample

end MagxNet.Bpf
