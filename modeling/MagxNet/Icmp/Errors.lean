import MagxNet.Icmp.Quoting

set_option autoImplicit false

namespace MagxNet.Icmp

open Bytes
open Buf (Good Heap HeapInv KmallocOk Member Ptr SIZEOF_BUF bufReserveBytes memcpy reserveRefuses sanityCheck)
open Ip (ipHdrlen iphDaddr)
open Route (IcmpType InAddr Netifs icmpDontsend ipIsBrdcstAddr)

-- What the callers pass: a datagram inside its buffer, and for a redirect another buffer with the gateway's address.
structure Passed (net : Net) (live : List Nat) (type : IcmpType) (buf1 : Nat) (buf2 : Option Nat) : Prop where
  error : isErrorType type = true
  reach : Buf.Reachable ⟨net.heap, live⟩
  first : buf1 ∈ live
  proper : sanityCheck net.heap buf1 = true
  second : ∀ c ∈ buf2, c ∈ live ∧ c ≠ buf1
  gateway : type = .redir → ∃ c ∈ buf2, sanityCheck net.heap c = true ∧ net.dstart c + 4 ≤ net.dend c

-- Nothing is sent when the message is suppressed or there is no memory, and what is sent is proper.
structure Answered (env : SendEnv) (type : IcmpType) (code : BitVec 16) (buf1 : Nat) (buf2 : Option Nat) (net net' : Net)
    (emitted : List Sent) : Prop where
  sent : net'.sent = net.sent ++ emitted
  silent : emitted = [] ↔ suppressed env.ifs (net.iph buf1) = true ∨ reserveRefuses env.kmalloc net.heap buf1 8 false = true
  proper : ∀ s ∈ emitted, Proper type code (restOfHeader net type buf2) (quotedPart net buf1) s.message
  first : Consumed net net' emitted buf1
  second : ∀ c ∈ buf2, Consumed net net' emitted c

def Answers (env : SendEnv) (type : IcmpType) (code : BitVec 16) (daddr : InAddr) (buf1 : Nat) (buf2 : Option Nat) (net : Net) : Prop :=
  ∀ fuel, ∃ net' emitted, icmpSend env (fuel + 2) type code daddr buf1 buf2 net = .ret net' ∧
    Answered env type code buf1 buf2 net net' emitted

-- A whole 64 bits behind the header, and a receiver that is no broadcast address.
def quotable (ifs : Netifs) (net : Net) (buf1 : Nat) (daddr : InAddr) : Bool :=
  decide (8 ≤ net.payload buf1) && !ipIsBrdcstAddr ifs daddr

section

variable (env : SendEnv) (net : Net) (live : List Nat) (type : IcmpType) (code : BitVec 16) (daddr : InAddr) (buf1 : Nat)
  (buf2 : Option Nat) (fuel : Nat)

theorem do_send_nothing (net' : Net) (error : isErrorType type = true)
    (run : reserveHeader env.kmalloc fuel buf1 net = .ret (none, net')) :
    doSend env.kmalloc fuel type buf1 buf2 net = .ret (none, net') := by
  unfold doSend
  cases type <;> first | (rw [run]; rfl) | cases error

-- The three kinds of errors differ in the long behind the checksum only.
theorem do_send_message (net' : Net) (nbuf : Nat) (error : isErrorType type = true)
    (gateway : type = .redir → ∃ c, buf2 = some c) (run : reserveHeader env.kmalloc fuel buf1 net = .ret (some nbuf, net')) :
    ∃ mem, doSend env.kmalloc fuel type buf1 buf2 net = .ret (some nbuf, { net' with mem := mem }) ∧
      peek mem (net'.dstart nbuf + 4) 4 = restOfHeader net' type buf2 ∧
      ∀ addr, addr < net'.dstart nbuf + 4 ∨ net'.dstart nbuf + 8 ≤ addr → mem addr = net'.mem addr := by
  unfold doSend
  cases type with
  | dstur | timex =>
      rw [run]
      refine ⟨_, rfl, peek_poke_here _ _ [0, 0, 0, 0], fun addr outside => poke_outside _ _ _ _ ?_⟩
      simp only [List.length_cons, List.length_nil]
      omega
  | redir =>
      obtain ⟨c, rfl⟩ := gateway rfl
      rw [run]
      refine ⟨_, rfl, ?_, fun addr outside => Buf.memcpy_outside _ _ _ _ _ (by omega)⟩
      exact peek_same _ _ _ _ _ fun i inside => Buf.memcpy_here _ _ _ _ i inside
  | _ => cases error

theorem icmp_send_suppressed (quiet : icmpDontsend env.ifs type (net.iph buf1) = true) :
    icmpSend env fuel type code daddr buf1 buf2 net = .ret (derefOptional (net.deref buf1) buf2) := by
  unfold icmpSend
  rw [if_pos quiet]

theorem icmp_send_nothing (net' : Net) (loud : icmpDontsend env.ifs type (net.iph buf1) = false)
    (run : doSend env.kmalloc fuel type buf1 buf2 net = .ret (none, net')) :
    icmpSend env fuel type code daddr buf1 buf2 net = .ret (derefOptional (net'.deref buf1) buf2) := by
  unfold icmpSend
  rw [if_neg (Bool.not_eq_true _ ▸ loud)]
  dsimp only
  rw [run]
  rfl

theorem icmp_send_message (net' : Net) (nbuf : Nat) (loud : icmpDontsend env.ifs type (net.iph buf1) = false)
    (single : ipIsBrdcstAddr env.ifs daddr = false) (run : doSend env.kmalloc fuel type buf1 buf2 net = .ret (some nbuf, net')) :
    icmpSend env fuel type code daddr buf1 buf2 net
      = .ret (derefOptional (ipSend (icmpSource env (iphDaddr (net.iph buf1))) daddr nbuf (fillHeader env.build type code nbuf net'))
          buf2) := by
  unfold icmpSend
  rw [if_neg (Bool.not_eq_true _ ▸ loud)]
  dsimp only
  rw [run, Outcome.ret_bind]
  dsimp only
  rw [reflect, if_neg (Bool.not_eq_true _ ▸ single), Outcome.ret_bind]

-- The room in front of the data does not depend on its end.
theorem set_dend_refuses (kmalloc : Buf.Kmalloc) (stop : Nat) :
    reserveRefuses kmalloc (net.setDend buf1 stop).heap buf1 8 false = reserveRefuses kmalloc net.heap buf1 8 false := by
  have search (count : Nat) : Buf.searchFree (net.setDend buf1 stop).heap count = Buf.searchFree net.heap count := by
    induction count with
    | zero => rfl
    | succ count ih => rw [Buf.searchFree, Buf.searchFree, ih]; rfl
  have len : (net.setDend buf1 stop).heap.buflen = net.heap.buflen := rfl
  have start : (net.setDend buf1 stop).heap.dstart = net.heap.dstart := rfl
  have blocks : (net.setDend buf1 stop).heap.blocks = net.heap.blocks := rfl
  simp only [reserveRefuses, Buf.refuses, Buf.reserveSpace, Bool.false_eq_true, if_false, search, len, start, blocks]

theorem deref_optional_sent : (derefOptional net buf2).sent = net.sent := by
  cases buf2 <;> rfl

theorem passed_counted (passed : Passed net live type buf1 buf2) : Counted net.heap live :=
  good_counted net.heap live (Buf.reachable_good _ passed.reach)

theorem answers_suppressed (passed : Passed net live type buf1 buf2) (quiet : suppressed env.ifs (net.iph buf1) = true) :
    Answers env type code daddr buf1 buf2 net := by
  intro fuel
  obtain ⟨first, second⟩ := give_back net live buf1 buf2 (passed_counted net live type buf1 buf2 passed) passed.first passed.second
  refine ⟨derefOptional (net.deref buf1) buf2, [], icmp_send_suppressed env net type code daddr buf1 buf2 _ ?_, ?_, ?_, ?_, ?_, ?_⟩
  · rw [dontsend_error env.ifs type _ passed.error, quiet]
  · rw [deref_optional_sent, List.append_nil]
    rfl
  · exact ⟨fun _ => Or.inl quiet, fun _ => rfl⟩
  · exact fun s none => absurd none List.not_mem_nil
  · rw [Consumed, first]
    exact Int.sub_zero _
  · intro c same
    rw [Consumed, second c same]
    exact Int.sub_zero _

-- No memory for the header: the buffers go back as they came.
theorem answers_refused (passed : Passed net live type buf1 buf2) (ok : KmallocOk env.kmalloc)
    (loud : suppressed env.ifs (net.iph buf1) = false)
    (refused : reserveRefuses env.kmalloc net.heap buf1 8 false = true) : Answers env type code daddr buf1 buf2 net := by
  intro fuel
  have counted := passed_counted net live type buf1 buf2 passed
  have framed := counted_frame net.heap (net.setDend buf1 (ipData net buf1 + 8)).heap live counted _ _ rfl
  obtain ⟨bufs, free, inv, each⟩ := framed
  obtain ⟨h', run, grant⟩ := Buf.reserve_null env.kmalloc (net.setDend buf1 (ipData net buf1 + 8)).heap net.mem bufs free buf1 8 false
    fuel ok inv (by rwa [set_dend_refuses])
  obtain ⟨_, outcome⟩ := Buf.alloc_spec env.kmalloc _ _ false ok _ _ h' .null bufs free inv grant
  obtain ⟨bufs', free', inv', kept⟩ : ∃ bufs' free', HeapInv h' bufs' free' [] ∧
      ∀ a, Buf.Kept (net.setDend buf1 (ipData net buf1 + 8)).heap h' bufs bufs' a := by
    rcases outcome with ⟨_, bufs', free', inv', kept⟩ | ⟨_, _, _, same, _⟩
    · exact ⟨bufs', free', inv', kept⟩
    · cases same
  have same (c : Nat) (inside : c ∈ live) : Member h' bufs' c ∧ h'.links (.mem c) = net.heap.links (.mem c) := by
    obtain ⟨member', links, _⟩ := kept (c + 1) c (Nat.ne_of_lt (Nat.lt_succ_self c)) (each c inside).1 (each c inside).2.ne'
    exact ⟨member', links⟩
  have after : Counted h' live := ⟨bufs', free', inv', fun c inside => ⟨(same c inside).1, (same c inside).2 ▸ (each c inside).2⟩⟩
  have header : reserveHeader env.kmalloc (fuel + 2) buf1 net
      = .ret (none, { net.setDend buf1 (ipData net buf1 + 8) with heap := h', mem := net.mem }) := by
    show (bufReserveBytes env.kmalloc (fuel + 2) (net.setDend buf1 (ipData net buf1 + 8)).heap net.mem (.mem buf1) 8 false).bind _
      = _
    rw [run]
    rfl
  have none := do_send_nothing env net type buf1 buf2 (fuel + 2) _ passed.error header
  obtain ⟨first, second⟩ := give_back { net.setDend buf1 (ipData net buf1 + 8) with heap := h', mem := net.mem } live buf1 buf2 after
    passed.first passed.second
  refine ⟨_, [], icmp_send_nothing env net type code daddr buf1 buf2 _ _ ?_ none, ?_, ?_, ?_, ?_, ?_⟩
  · rw [dontsend_error env.ifs type _ passed.error, loud]
  · rw [deref_optional_sent, List.append_nil]
    rfl
  · exact ⟨fun _ => Or.inr refused, fun _ => rfl⟩
  · exact fun s none => absurd none List.not_mem_nil
  · rw [Consumed, first, (same buf1 passed.first).2]
    exact Int.sub_zero _
  · intro c given
    rw [Consumed, second c given, (same c (passed.second c given).1).2]
    exact Int.sub_zero _

theorem header_taken (net' : Net) (x : Nat) (h' : Heap) (mem' : Buf.Memory) (stop : Nat) (same : stop = ipData net buf1 + 8)
    (run : bufReserveBytes env.kmalloc fuel (net.setDend buf1 stop).heap net.mem (.mem buf1) 8 false = .ret (.mem x, h', mem'))
    (made : net' = { net with heap := h', mem := mem' }) :
    reserveHeader env.kmalloc fuel buf1 net = .ret (some x, net'.setDstart x (net'.dstart x - 8)) := by
  subst same made
  show (bufReserveBytes env.kmalloc fuel (net.setDend buf1 (ipData net buf1 + 8)).heap net.mem (.mem buf1) 8 false).bind _ = _
  rw [run]
  rfl

theorem hdrlen_bounds : net.hdrlen buf1 % 4 = 0 ∧ net.hdrlen buf1 ≤ 60 := by
  have nibble : Ip.iphHdrlen (net.iph buf1) < 16 := Nat.mod_lt _ (by decide)
  have bytes : net.hdrlen buf1 = Ip.iphHdrlen (net.iph buf1) * 4 := rfl
  omega

-- buf_reserve takes the datagram, cut behind the first 64 bits, over into the buffer that it returns.
theorem header_reserved (ok : KmallocOk env.kmalloc) (good : Good ⟨net.heap, live⟩) (inside : buf1 ∈ live)
    (proper : sanityCheck net.heap buf1 = true) (room : 8 ≤ net.payload buf1)
    (served : reserveRefuses env.kmalloc net.heap buf1 8 false = false) :
    ∃ x h' mem', bufReserveBytes env.kmalloc (fuel + 2) (net.setDend buf1 (ipData net buf1 + 8)).heap net.mem (.mem buf1) 8 false
        = .ret (.mem x, h', mem') ∧
      Buf.Reserved (net.setDend buf1 (ipData net buf1 + 8)).heap h' net.mem mem' live buf1 x 8 false ∧
      Good (if Ptr.mem x = .null ∨ Ptr.mem x = .mem buf1 then ⟨h', live⟩
        else Buf.handedOut (Buf.release ⟨net.heap, live⟩ buf1) (.mem x, h')) := by
  obtain ⟨first, order, last, small⟩ := Buf.sanity_bounds net.heap buf1 proper
  have header : SIZEOF_BUF = 46 := rfl
  have limit : Buf.BUF_BLOCK_SIZE = 32768 := rfl
  have length : (net.data buf1).length = net.heap.dend (.mem buf1) - net.heap.dstart (.mem buf1) := peek_length ..
  rw [Net.payload, length] at room
  have stop : ipData net buf1 + 8 = net.heap.dstart (.mem buf1) + (net.hdrlen buf1 + 8) := Nat.add_assoc ..
  rw [stop]
  have good1 := Buf.set_dend_good ⟨net.heap, live⟩ buf1 (net.heap.dstart (.mem buf1) + (net.hdrlen buf1 + 8)) good inside first
    (Nat.le_add_right _ _) (by dsimp only; omega)
  have refuses := set_dend_refuses net buf1 env.kmalloc (net.heap.dstart (.mem buf1) + (net.hdrlen buf1 + 8))
  generalize made : net.setDend buf1 (net.heap.dstart (.mem buf1) + (net.hdrlen buf1 + 8)) = net1 at refuses ⊢
  have whole : net1.heap = (net.setDend buf1 (net.heap.dstart (.mem buf1) + (net.hdrlen buf1 + 8))).heap := by rw [made]
  have start : net1.heap.dstart (.mem buf1) = net.heap.dstart (.mem buf1) := by rw [whole]; rfl
  have len : net1.heap.buflen (.mem buf1) = net.heap.buflen (.mem buf1) := by rw [whole]; rfl
  have links : net1.heap.links (.mem buf1) = net.heap.links (.mem buf1) := by rw [whole]; rfl
  have new : net1.heap.dend (.mem buf1) = net.heap.dstart (.mem buf1) + (net.hdrlen buf1 + 8) := by
    rw [whole]
    exact Function.update_self ..
  have good2 : Good ⟨net1.heap, live⟩ := whole ▸ good1
  have sane : sanityCheck net1.heap buf1 = true := by
    simp only [sanityCheck, start, len, new, Bool.and_eq_true, decide_eq_true_eq]
    omega
  have fit : Buf.fits net1.heap buf1 8 false = true := by
    have number : (8 : BitVec 32).toNat = 8 := rfl
    simp only [Buf.fits, Buf.asked, Bool.false_eq_true, if_false, start, len, number, decide_eq_true_eq]
    omega
  obtain ⟨b, h', mem', run, result⟩ := Buf.reserve_holds env.kmalloc ⟨net1.heap, live⟩ net.mem buf1 8 false good2 ok inside sane
    (by decide) fit fuel
  have after := Buf.reserve_good env.kmalloc ⟨net1.heap, live⟩ net.mem mem' buf1 8 false _ b h' good2 ok inside run
  rcases result with ⟨rfl, _⟩ | ⟨x, rfl, reserved⟩
  · obtain ⟨bufs, free, inv, _⟩ := good2
    rw [Buf.reserve_not_null env.kmalloc net1.heap net.mem bufs free buf1 8 false fuel ok inv h' mem' run] at refuses
    rw [← refuses] at served
    cases served
  · refine ⟨x, h', mem', run, reserved, ?_⟩
    rw [Buf.release] at after ⊢
    dsimp only at after ⊢
    rwa [links] at after

-- Who holds what behind buf_reserve.
theorem reserved_counted (h1 h' : Heap) (mem mem' : Buf.Memory) (x : Nat) (reserve : BitVec 32) (atEnd : Bool)
    (reserved : Buf.Reserved h1 h' mem mem' live buf1 x reserve atEnd) (inside : buf1 ∈ live) (links : h1.links = net.heap.links)
    (positive : 0 < net.heap.links (.mem buf1))
    (good : Good (if Ptr.mem x = .null ∨ Ptr.mem x = .mem buf1 then ⟨h', live⟩
      else Buf.handedOut (Buf.release ⟨net.heap, live⟩ buf1) (.mem x, h'))) :
    ∃ rest, Counted h' rest ∧ (∀ c ∈ live, c ≠ buf1 → c ∈ rest) ∧ (h'.links (.mem buf1) = 0 ∨ buf1 ∈ rest) ∧
      h'.links (.mem buf1) - (if x = buf1 then 1 else 0 : Nat) = net.heap.links (.mem buf1) - 1 := by
  by_cases same : x = buf1
  · rw [if_pos (Or.inr (congrArg Ptr.mem same))] at good
    refine ⟨live, good_counted h' live good, fun c out _ => out, Or.inr inside, ?_⟩
    rw [(reserved.old same).links, links, if_pos same]
    rfl
  · rw [if_neg (fun which => same (Buf.mem_injective (which.resolve_left (fun none => by cases none))))] at good
    obtain ⟨_, _, dropped⟩ := reserved.fresh same
    refine ⟨_, good_counted h' _ good, fun c out other => ?_, ?_, ?_⟩
    · apply List.mem_cons_of_mem
      rw [Buf.release]
      split
      · exact out
      · exact (List.mem_erase_of_ne other).mpr out
    · by_cases more : 1 < net.heap.links (.mem buf1)
      · right
        apply List.mem_cons_of_mem
        rw [Buf.release, if_pos more]
        exact inside
      · left
        rw [dropped, links]
        omega
    · rw [dropped, links, if_neg same]
      exact Int.sub_zero _

-- The message, once it is put together in front of the data that buf_reserve left.
theorem message_proper (h1 h' : Heap) (mem' mem : Buf.Memory) (x : Nat) (net3 : Net)
    (same : h1 = (net.setDend buf1 (ipData net buf1 + 8)).heap)
    (reserved : Buf.Reserved h1 h' net.mem mem' live buf1 x 8 false) (room : 8 ≤ net.payload buf1)
    (taken : net3 = ({ net with heap := h', mem := mem' } : Net).setDstart x (h'.dstart (.mem x) - 8))
    (rest : peek mem (net3.dstart x + 4) 4 = restOfHeader net type buf2)
    (others : ∀ addr, addr < net3.dstart x + 4 ∨ net3.dstart x + 8 ≤ addr → mem addr = net3.mem addr) :
    Proper type code (restOfHeader net type buf2) (quotedPart net buf1)
      ((fillHeader env.build type code x { net3 with mem := mem }).data x) := by
  obtain ⟨quads, most⟩ := hdrlen_bounds net buf1
  have start : h1.dstart (.mem buf1) = net.dstart buf1 := by rw [same]; rfl
  have stop : h1.dend (.mem buf1) = net.dstart buf1 + (net.hdrlen buf1 + 8) := by
    rw [same]
    exact (Function.update_self ..).trans (Nat.add_assoc ..)
  have used : h1.dend (.mem buf1) - h1.dstart (.mem buf1) = net.hdrlen buf1 + 8 := by omega
  obtain ⟨length, bytes, _⟩ := reserved.data
  rw [used] at length bytes
  have front : x + SIZEOF_BUF + 8 ≤ h'.dstart (.mem x) := by
    have space := reserved.space
    have eight : (8 : BitVec 32).toInt = 8 := by decide
    rw [if_neg Bool.false_ne_true, Buf.lead, eight] at space
    omega
  have begin : net3.dstart x = h'.dstart (.mem x) - 8 := by
    rw [taken]
    exact Function.update_self ..
  have finish : net3.dend x = h'.dend (.mem x) := by rw [taken]; rfl
  have bytes3 : net3.mem = mem' := by rw [taken]; rfl
  have proper := filled_proper env.build type code x (net.hdrlen buf1 + 8) { net3 with mem := mem } (by
    show net3.dend x = net3.dstart x + _
    omega) (by omega) (by omega)
  have quote : peek mem (net3.dstart x + 8) (net.hdrlen buf1 + 8) = quotedPart net buf1 := by
    have cut : net.hdrlen buf1 + min 8 (net.payload buf1) = net.hdrlen buf1 + 8 := by omega
    have within : net.hdrlen buf1 + 8 ≤ net.dend buf1 - net.dstart buf1 := by
      have size : (net.data buf1).length = net.dend buf1 - net.dstart buf1 := peek_length ..
      rw [Net.payload, size] at room
      omega
    rw [quotedPart, cut, Net.data, peek_take _ _ _ _ within]
    apply peek_same
    intro i inside
    rw [others _ (Or.inr (by omega)), bytes3, ← start, ← bytes i inside]
    congr 1
    omega
  rw [← rest, ← quote]
  exact proper

-- The gateway's address is where it was.
theorem rest_kept (h1 h' : Heap) (mem' : Buf.Memory) (x : Nat) (net3 : Net) (passed : Passed net live type buf1 buf2)
    (same : h1 = (net.setDend buf1 (ipData net buf1 + 8)).heap)
    (others : ∀ c ∈ live, c ≠ buf1 → Buf.Untouched h1 h' net.mem mem' c) (apart : ∀ c ∈ live, c ≠ buf1 → c ≠ x)
    (taken : net3 = ({ net with heap := h', mem := mem' } : Net).setDstart x (h'.dstart (.mem x) - 8)) :
    restOfHeader net3 type buf2 = restOfHeader net type buf2 := by
  have error := passed.error
  cases type with
  | redir =>
      obtain ⟨c, given, proper, four⟩ := passed.gateway rfl
      obtain ⟨out, other⟩ := passed.second c given
      cases given
      obtain ⟨first, order, last, _⟩ := Buf.sanity_bounds net.heap c proper
      have kept := others c out other
      have start : net3.dstart c = net.dstart c := by
        rw [taken]
        refine (Function.update_of_ne (fun equal => apart c out other (Buf.mem_injective equal)) _ _).trans ?_
        rw [kept.start, same]
        rfl
      have len : h1.buflen (.mem c) = net.heap.buflen (.mem c) := by rw [same]; rfl
      have bytes3 : net3.mem = mem' := by rw [taken]; rfl
      have four' : net.heap.dstart (.mem c) + 4 ≤ net.heap.dend (.mem c) := four
      show peek net3.mem (net3.dstart c) 4 = peek net.mem (net.dstart c) 4
      rw [start, bytes3]
      apply peek_same
      intro i inside
      have place : net.dstart c = net.heap.dstart (.mem c) := rfl
      exact kept.bytes _ (by omega) (by rw [len]; omega)
  | dstur | timex => rfl
  | _ => cases error

-- The datagram has the 64 bits, and there is memory.
theorem answers_quoted (passed : Passed net live type buf1 buf2) (ok : KmallocOk env.kmalloc)
    (loud : suppressed env.ifs (net.iph buf1) = false) (served : reserveRefuses env.kmalloc net.heap buf1 8 false = false)
    (whole : quotable env.ifs net buf1 daddr = true) : Answers env type code daddr buf1 buf2 net := by
  intro fuel
  obtain ⟨enough, single⟩ := (Bool.and_eq_true _ _).mp whole
  have room := of_decide_eq_true enough
  have good := Buf.reachable_good _ passed.reach
  obtain ⟨x, h', mem', run, reserved, after⟩ := header_reserved env net live buf1 fuel ok good passed.first passed.proper room served
  have positive : 0 < net.heap.links (.mem buf1) := by
    obtain ⟨_, _, _, _, held⟩ := good
    exact held.counted buf1 passed.first
  obtain ⟨rest, counted, kept, left, links⟩ := reserved_counted net live buf1 _ h' net.mem mem' x 8 false reserved passed.first rfl positive after
  have apart (c : Nat) (out : c ∈ live) (other : c ≠ buf1) : c ≠ x := fun same => by
    subst same
    exact (reserved.fresh other).1 out
  have header := header_taken env net buf1 (fuel + 2) _ x h' mem' _ rfl run rfl
  generalize taken : ({ net with heap := h', mem := mem' } : Net).setDstart x (({ net with heap := h', mem := mem' } : Net).dstart x - 8)
    = net3 at header
  obtain ⟨mem, sent, field, others⟩ := do_send_message env net type buf1 buf2 (fuel + 2) net3 x passed.error
    (fun isRedir => by obtain ⟨c, same, _⟩ := passed.gateway isRedir; exact ⟨c, same⟩) header
  rw [rest_kept net live type buf1 buf2 _ h' mem' x net3 passed rfl reserved.others apart taken.symm] at field
  have proper := message_proper env net live type code buf1 buf2 _ h' mem' mem x net3 rfl reserved room taken.symm field others
  have answer := icmp_send_message env net type code daddr buf1 buf2 (fuel + 2) _ x
    ((dontsend_error env.ifs type _ passed.error).trans loud) (by simpa using single) sent
  have heap3 : net3.heap.links = h'.links := by rw [← taken]; rfl
  have counted3 : Counted net3.heap rest := counted_frame h' net3.heap rest counted _ _ (by rw [← taken]; rfl)
  have sent3 : net3.sent = net.sent := by rw [← taken]; rfl
  obtain ⟨first, second⟩ := deref_optional
    (ipSend (icmpSource env (iphDaddr (net.iph buf1))) daddr x (fillHeader env.build type code x { net3 with mem := mem })) rest buf1 buf2
    counted3 (fun c given => ⟨kept c (passed.second c given).1 (passed.second c given).2, (passed.second c given).2⟩)
    (left.imp (fun zero => (congrFun heap3 _).trans zero) id)
  have message : ∀ s ∈ [(⟨x, icmpSource env (iphDaddr (net.iph buf1)), daddr,
      (fillHeader env.build type code x { net3 with mem := mem }).data x⟩ : Sent)], s.buf = x ∧
        s.message = (fillHeader env.build type code x { net3 with mem := mem }).data x := by
    intro s only
    cases List.mem_singleton.mp only
    exact ⟨rfl, rfl⟩
  refine ⟨_, [⟨x, icmpSource env (iphDaddr (net.iph buf1)), daddr,
    (fillHeader env.build type code x { net3 with mem := mem }).data x⟩], answer, ?_, ?_, ?_, ?_, ?_⟩
  · rw [deref_optional_sent]
    show net3.sent ++ _ = _
    rw [sent3]
  · constructor
    · intro none
      cases none
    · rintro (quiet | refused)
      · rw [loud] at quiet
        cases quiet
      · rw [served] at refused
        cases refused
  · intro s only
    rw [(message s only).2]
    exact proper
  · rw [Consumed, first, List.countP_singleton]
    show net3.heap.links (.mem buf1) - _ = _
    rw [heap3, ← links]
    congr 2
    simp
  · intro c given
    obtain ⟨out, other⟩ := passed.second c given
    rw [Consumed, second c given, List.countP_singleton]
    show net3.heap.links (.mem c) - 1 - _ = _
    rw [heap3, (reserved.others c out other).links, if_neg (by simpa using (apart c out other).symm)]
    exact Int.sub_zero _

-- With less behind the header the message is as long as ever, and longer than what there is to quote.
theorem answers_short (passed : Passed net live type buf1 buf2) (ok : KmallocOk env.kmalloc)
    (loud : suppressed env.ifs (net.iph buf1) = false) (served : reserveRefuses env.kmalloc net.heap buf1 8 false = false)
    (single : ipIsBrdcstAddr env.ifs daddr = false) (short : net.payload buf1 < 8) :
    ¬ Answers env type code daddr buf1 buf2 net := by
  intro answers
  obtain ⟨net', emitted, answer, answered⟩ := answers 0
  obtain ⟨bufs, free, inv, placed, _⟩ := Buf.reachable_good _ passed.reach
  obtain ⟨first, _⟩ := Buf.sanity_bounds net.heap buf1 passed.proper
  obtain ⟨_, most⟩ := hdrlen_bounds net buf1
  have eight : (8 : BitVec 32).toInt = 8 := by decide
  have number : (8 : BitVec 32).toNat = 8 := rfl
  have header : SIZEOF_BUF = 46 := rfl
  have least : Buf.bufSize Buf.BUF_NSPLIT = 256 := rfl
  have frame := Buf.inv_frame net.heap (net.setDend buf1 (ipData net buf1 + 8)).heap bufs free [] inv rfl rfl rfl rfl rfl rfl rfl rfl
  have stop : (net.setDend buf1 (ipData net buf1 + 8)).heap.dend (.mem buf1)
      = (net.setDend buf1 (ipData net buf1 + 8)).heap.dstart (.mem buf1) + (net.hdrlen buf1 + 8) :=
    (Function.update_self ..).trans (Nat.add_assoc ..)
  obtain ⟨x, h', mem', run, length, front⟩ := Buf.reserve_length env.kmalloc _ net.mem bufs free buf1 8 0 (net.hdrlen buf1 + 8) ok frame
    placed stop (by omega) first (by omega) (by rwa [set_dend_refuses])
  have taken := header_taken env net buf1 2 _ x h' mem' _ rfl run rfl
  obtain ⟨mem, sent, _⟩ := do_send_message env net type buf1 buf2 2 _ x passed.error
    (fun isRedir => by obtain ⟨c, same, _⟩ := passed.gateway isRedir; exact ⟨c, same⟩) taken
  rw [icmp_send_message env net type code daddr buf1 buf2 2 _ x ((dontsend_error env.ifs type _ passed.error).trans loud) single sent]
    at answer
  have all := answered.sent
  rw [← Outcome.ret.inj answer, deref_optional_sent] at all
  have only := List.append_cancel_left all
  have proper := answered.proper _ (only ▸ List.mem_singleton_self _)
  have quote := congrArg List.length proper.quote
  rw [List.length_drop, quotedPart, List.length_take] at quote
  have begin : (({ net with heap := h', mem := mem' } : Net).setDstart x (({ net with heap := h', mem := mem' } : Net).dstart x - 8)).dstart x
      = h'.dstart (.mem x) - 8 := Function.update_self ..
  have size : ((fillHeader env.build type code x { (({ net with heap := h', mem := mem' } : Net).setDstart x
      (({ net with heap := h', mem := mem' } : Net).dstart x - 8)) with mem := mem }).data x).length
      = h'.dend (.mem x) - (h'.dstart (.mem x) - 8) := by
    rw [Net.data, peek_length]
    exact congrArg (h'.dend (.mem x) - ·) begin
  rw [size] at quote
  omega

end

-- Every datagram, and every call for an error that the callers make. An answer to a broadcast address goes out a second time,
-- before its header is made: what that copy has there is what the memory had.
theorem icmp_send_quotes (env : SendEnv) (net : Net) (live : List Nat) (type : IcmpType) (code : BitVec 16) (daddr : InAddr) (buf1 : Nat)
    (buf2 : Option Nat) (passed : Passed net live type buf1 buf2) (ok : KmallocOk env.kmalloc) :
    let holds := suppressed env.ifs (net.iph buf1) = true ∨ reserveRefuses env.kmalloc net.heap buf1 8 false = true ∨
      quotable env.ifs net buf1 daddr = true
    (holds → Answers env type code daddr buf1 buf2 net) ∧
      (ipIsBrdcstAddr env.ifs daddr = false → Answers env type code daddr buf1 buf2 net → holds) := by
  intro holds
  constructor
  · intro condition
    by_cases quiet : suppressed env.ifs (net.iph buf1) = true
    · exact answers_suppressed env net live type code daddr buf1 buf2 passed quiet
    have loud := Bool.eq_false_of_not_eq_true quiet
    by_cases refused : reserveRefuses env.kmalloc net.heap buf1 8 false = true
    · exact answers_refused env net live type code daddr buf1 buf2 passed ok loud refused
    have served := Bool.eq_false_of_not_eq_true refused
    have whole := (condition.resolve_left quiet).resolve_left refused
    exact answers_quoted env net live type code daddr buf1 buf2 passed ok loud served whole
  · intro single answers
    by_contra outside
    obtain ⟨quiet, rest⟩ := not_or.mp outside
    obtain ⟨refused, cut⟩ := not_or.mp rest
    have short : net.payload buf1 < 8 := by
      by_contra enough
      apply cut
      rw [quotable, single, decide_eq_true (Nat.le_of_not_lt enough)]
      rfl
    exact answers_short env net live type code daddr buf1 buf2 passed ok (Bool.eq_false_of_not_eq_true quiet)
      (Bool.eq_false_of_not_eq_true refused) single short answers

-- A UDP datagram from 10.0.0.1 to 10.0.0.2 in a buffer with 18 bytes in front of it, cut off at stop.
def datagramBytes : Buffer :=
  [0x45, 0, 0, 28, 0, 0, 0, 0, 64, 17, 0, 0, 10, 0, 0, 1, 10, 0, 0, 2, 1, 2, 3, 4, 5, 6, 7, 8]

def arrived (stop : Nat) : Net where
  heap := { Buf.oneOutState.heap with
    dstart := Function.update Buf.oneOutState.heap.dstart (.mem 65536) 65600
    dend := Function.update Buf.oneOutState.heap.dend (.mem 65536) stop
    info := Function.update Buf.oneOutState.heap.info (.mem 65536) 0 }
  mem := poke (fun _ => 0) 65600 datagramBytes
  sent := []

def bareEnv : SendEnv where
  ifs := ⟨fun _ => ⟨true, false, false, 1500, 10, none⟩, [], 0, 0⟩
  ipLocalAddr := fun _ => 0
  kmalloc := Buf.oneBlock
  build := .gnu

theorem arrived_passed (stop : Nat) (order : 65600 ≤ stop) (last : stop ≤ 65792)
    (proper : sanityCheck (arrived stop).heap 65536 = true) : Passed (arrived stop) [65536] .dstur 65536 none where
  error := rfl
  reach := .step Buf.oneBlock 0 Buf.oneOutState _ (.fill 65536 65600 stop 0) Buf.one_out_reachable Buf.one_block_ok
    ⟨by decide, by decide, order, le_trans last (by decide)⟩ rfl
  first := List.mem_singleton_self 65536
  proper := proper
  second := fun c none => by cases none
  gateway := fun no => by cases no

theorem icmp_send_quotes_whole : Answers bareEnv .dstur 3 0x0a000001 65536 none (arrived 65628) :=
  (icmp_send_quotes bareEnv (arrived 65628) [65536] .dstur 3 0x0a000001 65536 none
    (arrived_passed 65628 (by decide) (by decide) (by decide)) Buf.one_block_ok).1 (Or.inr (Or.inr (by decide +kernel)))

-- Four bytes behind the header: the message has eight. And what is reflected is no destination unreachable message.
theorem icmp_send_beyond : ¬ Answers bareEnv .dstur 3 0x0a000001 65536 none (arrived 65624) ∧
    ¬ Answers bareEnv .dstur 3 0xffffffff 65536 none (arrived 65628) := by
  constructor
  · exact answers_short bareEnv (arrived 65624) [65536] .dstur 3 0x0a000001 65536 none
      (arrived_passed 65624 (by decide) (by decide) (by decide)) Buf.one_block_ok (by decide +kernel) (by decide +kernel)
      (by decide +kernel) (by decide +kernel)
  · intro answers
    obtain ⟨net', emitted, run, answered⟩ := answers 0
    have types : ((icmpSend bareEnv 2 .dstur 3 0xffffffff 65536 none (arrived 65628)).bind fun net =>
        .ret (net.sent.map fun s => get8 s.message 0)) = .ret [0, 3] := by decide +kernel
    rw [run, Outcome.ret_bind, answered.sent] at types
    have first : (0 : Byte) ∈ emitted.map fun s => get8 s.message 0 := by
      have all : emitted.map (fun s => get8 s.message 0) = [0, 3] := Outcome.ret.inj types
      rw [all]
      exact List.mem_cons_self
    obtain ⟨s, sent, zero⟩ := List.mem_map.mp first
    have type := (answered.proper s sent).type
    rw [zero] at type
    cases type

end MagxNet.Icmp
