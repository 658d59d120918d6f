import MagxNet.Sld.Slcompr

set_option autoImplicit false

namespace MagxNet.Sld.Slc

open Bytes Ip MagxNet.Sld.Slip

-- Only the list of the states may be another.
structure Relinked (comp comp' : Slcompress) : Prop where
  lastRecv : comp'.lastRecv = comp.lastRecv
  lastXmit : comp'.lastXmit = comp.lastXmit
  toss : comp'.toss = comp.toss
  rstate : comp'.rstate = comp.rstate
  hdr : ∀ i, (comp'.tstate i).hdr = (comp.tstate i).hdr
  id : ∀ i, (comp'.tstate i).id = (comp.tstate i).id

theorem relinked_self (comp : Slcompress) : Relinked comp comp := ⟨rfl, rfl, rfl, rfl, fun _ => rfl, fun _ => rfl⟩

-- The states, the one used last in front.
abbrev States (comp : Slcompress) (nodes : List Nat) : Prop := Lru.Ring (nextOf comp) comp.lastCs nodes

theorem find_spec (comp : Slcompress) (p : Buffer) (nodes : List Nat) (states : States comp nodes)
    (size : nodes.length = MAX_STATES) :
    ∃ comp' cs found, findState comp p = some (comp', cs, found) ∧ Relinked comp comp' ∧ cs ∈ nodes
      ∧ States comp' (cs :: nodes.erase cs) ∧ Lru.Finds (hits comp p) nodes cs found := by
  obtain ⟨x, rest, rfl⟩ : ∃ x rest, nodes = x :: rest := List.exists_cons_of_length_eq_add_one size
  have head : nextOf comp comp.lastCs = x := Lru.ring_head _ _ _ _ states
  have distinct := states.distinct
  rw [List.length_cons, MAX_STATES] at size
  have some' : rest ≠ [] := by
    rintro rfl
    cases size
  unfold findState
  rw [head]
  by_cases first : hits comp p x = true
  · rw [if_pos first]
    refine ⟨comp, x, true, rfl, relinked_self comp, List.mem_cons_self, ?_, .hit [] rest rfl first fun y member => ?_⟩
    · rw [List.erase_cons_head]
      exact states
    · cases member
  · have missed := Bool.eq_false_of_not_eq_true first
    rw [if_neg first]
    obtain ⟨a, q, c, b, whole, found, before, result⟩ | ⟨a, q, whole, before, result⟩ :=
      Lru.seek_spec (nextOf comp) (hits comp p) comp.lastCs x [] rest MAX_STATES states some' (by rw [MAX_STATES]; omega)
    · have missed' : ∀ y ∈ a ++ [q], hits comp p y = false := by
        obtain ⟨tail, begins⟩ : ∃ tail, a ++ [q] = x :: tail := by
          cases a with
          | nil => exact ⟨[], congrArg (· :: []) (List.cons_eq_cons.mp whole).1.symm⟩
          | cons f a => exact ⟨a ++ [q], congrArg (· :: (a ++ [q])) (List.cons_eq_cons.mp whole).1.symm⟩
        rw [begins] at before ⊢
        intro y member
        obtain rfl | member := List.mem_cons.mp member
        · exact missed
        · exact before y member
      have split : a ++ q :: c :: b = (a ++ [q]) ++ c :: b := by simp
      rw [result]
      dsimp only
      rw [whole] at states distinct ⊢
      have finds : Lru.Finds (hits comp p) (a ++ q :: c :: b) c true := .hit (a ++ [q]) b split found missed'
      by_cases last : c = comp.lastCs
      · rw [if_pos (Or.inr last)]
        obtain rfl : b = [] := by
          by_contra more
          have ends := states.ends
          rw [split, List.getLast?_append_of_ne_nil _ (List.cons_ne_nil _ _), List.getLast?_cons, Option.some_inj,
            List.getLast?_eq_some_getLast more, Option.getD_some] at ends
          have inside : c ∈ b := last ▸ ends ▸ List.getLast_mem more
          rw [split] at distinct
          exact (List.nodup_cons.mp (List.nodup_append.mp distinct).2.1).1 inside
        refine ⟨_, c, true, rfl, ⟨rfl, rfl, rfl, rfl, fun _ => rfl, fun _ => rfl⟩, by simp, ?_, finds⟩
        rw [split, Lru.erase_here _ _ _ (split ▸ distinct), List.append_nil]
        rw [last] at states ⊢
        exact Lru.ring_turn (nextOf comp) comp.lastCs q a states
      · rw [if_neg fun either => either.elim (by decide) last]
        obtain ⟨mid, rfl⟩ : ∃ mid, b = mid ++ [comp.lastCs] := by
          have ends := states.ends
          have more : b ≠ [] := by
            rintro rfl
            rw [split, List.getLast?_concat] at ends
            exact last (Option.some.inj ends)
          rw [split, List.getLast?_append_of_ne_nil _ (List.cons_ne_nil _ _), List.getLast?_cons, Option.some_inj,
            List.getLast?_eq_some_getLast more, Option.getD_some] at ends
          exact ⟨b.dropLast, by rw [← ends, List.dropLast_concat_getLast]⟩
        refine ⟨_, c, true, rfl, ⟨rfl, rfl, rfl, rfl, fun _ => rfl, fun _ => rfl⟩, by simp, ?_, finds⟩
        have brought := Lru.ring_bring (nextOf comp) comp.lastCs q c a mid states
        rw [split, Lru.erase_here _ _ _ (split ▸ distinct), List.append_assoc, List.singleton_append]
        exact brought
    · rw [result]
      dsimp only
      rw [if_pos (Or.inl rfl)]
      have split : a ++ [q, comp.lastCs] = (a ++ [q]) ++ [comp.lastCs] := by simp
      have all : ∀ y ∈ x :: rest, hits comp p y = false := by
        intro y member
        obtain rfl | member := List.mem_cons.mp member
        · exact missed
        · exact before y member
      rw [whole] at states distinct all ⊢
      refine ⟨_, comp.lastCs, false, rfl, ⟨rfl, rfl, rfl, rfl, fun _ => rfl, fun _ => rfl⟩, by simp, ?_, .oldest
        (a ++ [q]) split all⟩
      rw [split, Lru.erase_here _ _ _ (split ▸ distinct), List.append_nil]
      exact Lru.ring_turn (nextOf comp) comp.lastCs q a states

-- q begins with the headers of p.
def Heads (p q : Buffer) : Prop := ∀ i < hdrLength p, get8 q i = get8 p i

theorem bcopy_heads (p hdr : Buffer) : Heads p (bcopy p hdr (hdrLength p)) := fun i less => by
  unfold bcopy
  rw [get8_append_left _ _ _ (by rwa [copy_bytes_length]), get8_copy_bytes _ _ _ _ less, Nat.zero_add]

theorem heads_place (p q : Buffer) (ihl : 5 ≤ iphHdrlen p) (doff : 5 ≤ tcphHdrlen p) (heads : Heads p q) :
    iphHdrlen q = iphHdrlen p ∧ tcpAt q = tcpAt p ∧ tcphHdrlen q = tcphHdrlen p ∧ hdrLength q = hdrLength p := by
  have first : iphHdrlen q = iphHdrlen p := by
    unfold iphHdrlen
    rw [heads 0 (by unfold hdrLength; omega)]
  have place : tcpAt q = tcpAt p := by
    unfold tcpAt
    rw [first]
  have second : tcphHdrlen q = tcphHdrlen p := by
    unfold tcphHdrlen
    rw [place, heads (tcpAt p + 12) (by unfold hdrLength tcpAt; omega)]
  refine ⟨first, place, second, ?_⟩
  unfold hdrLength
  rw [first, second]

theorem conn_kept (p q : Buffer) (ihl : 5 ≤ iphHdrlen p) (doff : 5 ≤ tcphHdrlen p) (heads : Heads p q) : connOf q = connOf p := by
  obtain ⟨-, place, -, -⟩ := heads_place p q ihl doff heads
  unfold connOf
  rw [place, get32_congr _ _ _ _ fun k less => heads (12 + k) (by unfold hdrLength; omega),
    get32_congr _ _ _ _ fun k less => heads (16 + k) (by unfold hdrLength; omega),
    get32_congr _ _ _ _ fun k less => heads (tcpAt p + k) (by unfold hdrLength tcpAt; omega)]

-- The connections of the states.
def conns (comp : Slcompress) (nodes : List Nat) : List (BitVec 32 × BitVec 32 × BitVec 32) :=
  nodes.map fun i => connOf (comp.tstate i).hdr

theorem keep_states (comp : Slcompress) (cs : Nat) (p : Buffer) (nodes : List Nat) (states : States comp nodes) :
    States (keepHdr comp cs p) nodes := by
  refine Lru.ring_congr _ _ _ _ states fun i _ => ?_
  unfold nextOf keepHdr setHdr
  dsimp only
  by_cases same : i = cs
  · rw [same, Function.update_self]
  · rw [Function.update_of_ne same]

theorem keep_conns (comp : Slcompress) (cs : Nat) (p : Buffer) (nodes : List Nat) (ihl : 5 ≤ iphHdrlen p)
    (doff : 5 ≤ tcphHdrlen p) :
    conns (keepHdr comp cs p) nodes = nodes.map (Function.update (fun i => connOf (comp.tstate i).hdr) cs (connOf p)) := by
  refine List.map_congr_left fun i _ => ?_
  unfold keepHdr setHdr
  dsimp only
  by_cases same : i = cs
  · rw [same, Function.update_self, Function.update_self]
    exact conn_kept p _ ihl doff (bcopy_heads p _)
  · rw [Function.update_of_ne same, Function.update_of_ne same]

-- Whether it is sent compressed or not, a packet makes its connection the one used last.
theorem compress_keeps (comp comp' : Slcompress) (cid : Bool) (p : Buffer) (cs : Nat) (found : Bool) (able : compressible p = true)
    (find : findState comp p = some (comp', cs, found)) : ∃ comp2 type b, slcCompress comp cid p = some (comp2, type, b)
      ∧ comp2.lastCs = comp'.lastCs ∧ comp2.tstate = (keepHdr comp' cs p).tstate := by
  unfold slcCompress
  rw [if_pos able, find]
  cases found with
  | false => exact ⟨_, _, _, rfl, rfl, rfl⟩
  | true =>
      dsimp only
      cases codeHeader p (comp'.tstate cs).hdr with
      | none => exact ⟨_, _, _, rfl, rfl, rfl⟩
      | some c =>
          refine ⟨_, _, _, rfl, ?_, ?_⟩ <;> split <;> rfl

theorem compress_touches (comp : Slcompress) (cid : Bool) (p : Buffer) (nodes : List Nat) (states : States comp nodes)
    (size : nodes.length = MAX_STATES) (able : compressible p = true) (ihl : 5 ≤ iphHdrlen p) (doff : 5 ≤ tcphHdrlen p) :
    ∃ comp' type b nodes', slcCompress comp cid p = some (comp', type, b) ∧ States comp' nodes' ∧ nodes'.length = MAX_STATES
      ∧ conns comp' nodes' = Lru.touch (connOf p) (conns comp nodes) := by
  obtain ⟨comp1, cs, found, find, relinked, member, states', finds⟩ := find_spec comp p nodes states size
  obtain ⟨comp2, type, b, result, last, tstate⟩ := compress_keeps comp comp1 cid p cs found able find
  have kept := keep_states comp1 cs p _ states'
  have next : nextOf comp2 = nextOf (keepHdr comp1 cs p) := by
    unfold nextOf
    rw [tstate]
  have keys : (fun i => connOf (comp1.tstate i).hdr) = fun i => connOf (comp.tstate i).hdr := by
    funext i
    rw [relinked.hdr]
  refine ⟨comp2, type, b, cs :: nodes.erase cs, result, ?_, ?_, ?_⟩
  · rw [States, next, last]
    exact kept
  · rw [List.length_cons, List.length_erase_of_mem member, size]
    rfl
  · have written : conns comp2 (cs :: nodes.erase cs) = conns (keepHdr comp1 cs p) (cs :: nodes.erase cs) := by
      unfold conns
      rw [tstate]
    rw [written, keep_conns comp1 cs p _ ihl doff, keys]
    exact Lru.finds_touch (fun i => connOf (comp.tstate i).hdr) (connOf p) nodes cs found finds states.distinct

-- A row of calls of slc_compress.
def slcRun (comp : Slcompress) (packets : List (Bool × Buffer)) : Option Slcompress :=
  packets.foldlM (fun comp q => (slcCompress comp q.1 q.2).map (·.1)) comp

-- The states from the one used last to the one that has waited longest.
def recent (comp : Slcompress) : List Nat := List.iterate (nextOf comp) (nextOf comp comp.lastCs) MAX_STATES

theorem path_iterate (next : Nat → Nat) (a : Nat) (nodes : List Nat) (path : Links.Path next (a :: nodes)) :
    List.iterate next (next a) nodes.length = nodes := by
  induction nodes generalizing a with
  | nil => rfl
  | cons b nodes ih =>
      obtain ⟨ahead, path⟩ := List.isChain_cons_cons.mp path
      rw [List.length_cons, List.iterate, ahead, ih b path]

theorem recent_states (comp : Slcompress) (nodes : List Nat) (states : States comp nodes) (size : nodes.length = MAX_STATES) :
    recent comp = nodes := by
  unfold recent
  rw [← size]
  exact path_iterate _ _ nodes states.path

theorem init_states : States slcInit (List.range MAX_STATES).reverse := by
  refine ⟨?_, by decide, by decide⟩
  unfold Links.Path
  decide

-- The connections of those packets that slc_compress looks for.
def used (packets : List (Bool × Buffer)) : List (BitVec 32 × BitVec 32 × BitVec 32) :=
  ((packets.map (·.2)).filter compressible).map connOf

-- What slc_compress has to look at of a packet.
structure Headed (p : Buffer) : Prop where
  ihl : 5 ≤ iphHdrlen p
  doff : 5 ≤ tcphHdrlen p
  conn : connOf p ≠ (0, 0, 0)

theorem run_touches (packets : List (Bool × Buffer)) (comp : Slcompress) (nodes : List Nat) (states : States comp nodes)
    (size : nodes.length = MAX_STATES) (headed : ∀ q ∈ packets, compressible q.2 = true → Headed q.2) :
    ∃ comp' nodes', slcRun comp packets = some comp' ∧ States comp' nodes' ∧ nodes'.length = MAX_STATES
      ∧ conns comp' nodes' = (used packets).foldl (fun l k => Lru.touch k l) (conns comp nodes) := by
  induction packets generalizing comp nodes with
  | nil => exact ⟨comp, nodes, rfl, states, size, rfl⟩
  | cons q packets ih =>
      have rest := fun r member => headed r (List.mem_cons_of_mem q member)
      by_cases able : compressible q.2 = true
      · have own := headed q List.mem_cons_self able
        obtain ⟨comp1, type, b, nodes1, result, states1, size1, keys⟩ :=
          compress_touches comp q.1 q.2 nodes states size able own.ihl own.doff
        obtain ⟨comp2, nodes2, run, states2, size2, last⟩ := ih comp1 nodes1 states1 size1 rest
        refine ⟨comp2, nodes2, ?_, states2, size2, ?_⟩
        · rw [slcRun, List.foldlM_cons, result]
          exact run
        · rw [last, used, used, List.map_cons, List.filter_cons_of_pos able, List.map_cons, List.foldl_cons, keys]
      · obtain ⟨comp2, nodes2, run, states2, size2, last⟩ := ih comp nodes states size rest
        refine ⟨comp2, nodes2, ?_, states2, size2, ?_⟩
        · have none : slcCompress comp q.1 q.2 = some (comp, TYPE_IP, q.2) := if_neg able
          rw [slcRun, List.foldlM_cons, none]
          exact run
        · rw [last, used, used, List.map_cons, List.filter_cons_of_neg able]

-- Two packets of one connection: an acknowledgement, and three bytes.
def ackPacket : Buffer :=
  [69, 0, 0, 40, 0, 1, 64, 0, 64, 6, 38, 205, 10, 0, 0, 1, 10, 0, 0, 2, 4, 1, 0, 80, 0, 0, 3, 232, 0, 0, 7, 208, 80, 16, 16, 0,
    18, 52,
  0, 0]

def dataPacket : Buffer :=
  [69, 0, 0, 43, 0, 2, 64, 0, 64, 6, 38, 201, 10, 0, 0, 1, 10, 0, 0, 2, 4, 1, 0, 80, 0, 0, 3, 232, 0, 0, 7, 208, 80, 24, 16, 0,
    18, 52,
  0, 0, 1, 2, 3]

end MagxNet.Sld.Slc
