import MagxNet.Route.Input
import MagxNet.Route.Balance

set_option autoImplicit false

namespace MagxNet.Route

open Bytes

open Ip (iphSaddr iphDaddr)

-- A datagram is passed on with a TTL of at least one that is one less than it was.
def TtlKept (ttl : Byte) : Option Forwarded → Prop
  | none => True
  | some f => (iphTtl f.dgram).toNat + 1 = ttl.toNat ∧ 1 ≤ (iphTtl f.dgram).toNat

-- Neither timed out nor sent back where it came from.
def PassesOn (nif iph rt : Nat) (node : Node) : Prop := iphTtl (node.mem iph) ≠ 1 ∧ (node.table.rt rt).nif ≠ nif

-- The datagrams that leave with another TTL: one that came with zero, one that is not in the buffer that iph points
-- into, and the copy of a broadcast.
inductive Wrong (env : Env) (hooks : Hooks) (nif iph buf : Nat) (node : Node) : Prop where
  | wraps (rt : Nat) (node' : Node) (route : get node (iphDaddr (node.mem iph)) = (some rt, node'))
      (foreign : ipChkAddr env.ifs (iphDaddr (node'.mem iph)) (node'.table.rt rt) = .none) (passes : PassesOn nif iph rt node')
      (same : buf = iph) (zero : iphTtl (node.mem iph) = 0)
  | stale (rt : Nat) (node' : Node) (route : get node (iphDaddr (node.mem iph)) = (some rt, node'))
      (foreign : ipChkAddr env.ifs (iphDaddr (node'.mem iph)) (node'.table.rt rt) = .none) (passes : PassesOn nif iph rt node')
      (other : buf ≠ iph)
  | copied (rt : Nat) (node' node'' : Node) (copy : Buffer) (route : get node (iphDaddr (node.mem iph)) = (some rt, node'))
      (broadcast : ipChkAddr env.ifs (iphDaddr (node'.mem iph)) (node'.table.rt rt) = .brdcst)
      (delivered : localInput env hooks node' nif iph buf rt .brdcst = (some copy, node''))
      (passes : PassesOn nif iph rt node'')

-- What masquerading hands on: the same buffer, or another one with the whole datagram.
def Handed (hooks : Hooks) (nif buf : Nat) (node : Node) (buf' : Nat) (node' : Node) : Prop :=
  Ip.ipInputAccepts (node.mem buf) ∧ masqInput hooks nif buf node = (some buf', node')

@[simp] theorem ttl_set (dgram : Buffer) (ttl : Byte) : iphTtl (setTtl dgram ttl) = ttl := by
  simp [iphTtl, setTtl, get8, copyBytes]

@[simp] theorem get_mem (node : Node) (daddr : InAddr) : (get node daddr).2.mem = node.mem := rfl

theorem ttl_above (ttl : Byte) : ttl - 1 = 0 ↔ ttl = 1 := by
  constructor
  · intro zero
    rw [← BitVec.sub_add_cancel ttl 1, zero]
    rfl
  · rintro rfl
    rfl

theorem dec_ttl_here (node : Node) (iph : Nat) :
    (decTtl node iph).mem iph = setTtl (node.mem iph) (iphTtl (node.mem iph) - 1) := Function.update_self _ _ _

theorem dec_ttl_elsewhere (node : Node) (iph buf : Nat) (other : buf ≠ iph) : (decTtl node iph).mem buf = node.mem buf :=
  Function.update_of_ne other _ _

theorem forward_stays (env : Env) (node : Node) (nif iph rt : Nat) (addrtype : AddrType) (buf : Holder)
    (stays : ¬ PassesOn nif iph rt node) : (forward env node nif iph rt addrtype buf).1 = none := by
  unfold forward
  dsimp only
  rw [dec_ttl_here, ttl_set]
  split
  · rfl
  · rename_i lives
    have nif' : ((decTtl node iph).table.rt rt).nif = nif := by
      by_contra elsewhere
      exact stays ⟨fun one => lives ((ttl_above _).mpr one), elsewhere⟩
    rw [if_pos nif']
    split <;> rfl

theorem forward_passes (env : Env) (node : Node) (nif iph rt : Nat) (addrtype : AddrType) (buf : Holder)
    (passes : PassesOn nif iph rt node) :
    ∃ f, (forward env node nif iph rt addrtype buf).1 = some f ∧ f.dgram = buf.bytes (decTtl node iph) := by
  have elsewhere : ((decTtl node iph).table.rt rt).nif ≠ nif := passes.2
  unfold forward
  dsimp only
  rw [dec_ttl_here, ttl_set, if_neg (fun zero => passes.1 ((ttl_above _).mp zero)), if_neg elsewhere]
  exact ⟨_, rfl, rfl⟩

theorem ttl_lowered (ttl : Byte) : ((ttl - 1).toNat + 1 = ttl.toNat ∧ 1 ≤ (ttl - 1).toNat) ↔ ttl ≠ 0 ∧ ttl ≠ 1 := by
  have bound := ttl.isLt
  have zero : (0 : Byte).toNat = 0 := rfl
  have one : (1 : Byte).toNat = 1 := rfl
  rw [ne_eq, ne_eq, BitVec.toNat_eq, BitVec.toNat_eq, BitVec.toNat_sub, zero, one]
  omega

-- A datagram that is passed on from where it lies.
theorem forward_buf (env : Env) (node : Node) (nif iph buf rt : Nat) (addrtype : AddrType) :
    TtlKept (iphTtl (node.mem buf)) (forward env node nif iph rt addrtype (.buf buf)).1
      ↔ ¬ (PassesOn nif iph rt node ∧ (buf = iph → iphTtl (node.mem iph) = 0)) := by
  by_cases passes : PassesOn nif iph rt node
  · obtain ⟨f, found, bytes⟩ := forward_passes env node nif iph rt addrtype (.buf buf) passes
    rw [found]
    unfold TtlKept
    dsimp only
    rw [bytes]
    dsimp only [Holder.bytes]
    by_cases same : buf = iph
    · subst same
      rw [dec_ttl_here, ttl_set, ttl_lowered]
      exact ⟨fun lowered wrong => lowered.1 (wrong.2 rfl), fun right => ⟨fun zero => right ⟨passes, fun _ => zero⟩, passes.1⟩⟩
    · rw [dec_ttl_elsewhere node iph buf same]
      exact iff_of_false (fun kept => by omega) (fun right => right ⟨passes, fun same' => (same same').elim⟩)
  · rw [forward_stays env node nif iph rt addrtype _ passes]
    exact iff_of_true trivial fun wrong => passes wrong.1

-- A copy is never right.
theorem forward_copy (env : Env) (node : Node) (nif iph rt : Nat) (addrtype : AddrType) (copy : Buffer) :
    TtlKept (iphTtl copy) (forward env node nif iph rt addrtype (.copy copy)).1 ↔ ¬ PassesOn nif iph rt node := by
  by_cases passes : PassesOn nif iph rt node
  · obtain ⟨f, found, bytes⟩ := forward_passes env node nif iph rt addrtype (.copy copy) passes
    rw [found]
    unfold TtlKept
    dsimp only
    rw [bytes]
    exact iff_of_false (fun kept => by dsimp only [Holder.bytes] at kept; omega) fun right => right passes
  · rw [forward_stays env node nif iph rt addrtype _ passes]
    exact iff_of_true trivial passes

theorem brdcst_copy_bytes (env : Env) (node : Node) (buf : Buffer) (nif : Nat) (rt : Rt) (addrtype : AddrType)
    (copy : Buffer) (made : (ipBrdcstCopy env node buf nif rt addrtype).1 = some copy) :
    copy = buf ∧ addrtype = .brdcst := by
  unfold ipBrdcstCopy at made
  split at made
  · cases made
  · rename_i wanted
    dsimp only at made
    split at made
    · cases made
      exact ⟨rfl, by simpa using fun other => wanted (Or.inl other)⟩
    · cases made

theorem local_copy_bytes (env : Env) (hooks : Hooks) (node node' : Node) (nif iph buf rt : Nat) (addrtype : AddrType)
    (copy : Buffer) (delivered : localInput env hooks node nif iph buf rt addrtype = (some copy, node')) :
    copy = node.mem buf ∧ addrtype = .brdcst := by
  have made : (ipBrdcstCopy env node (node.mem buf) nif (node.table.rt rt) addrtype).1 = some copy := by
    unfold localInput at delivered
    dsimp only at delivered
    split at delivered <;> exact (Prod.mk.inj delivered).1
  exact brdcst_copy_bytes env node _ nif _ addrtype copy made

theorem route_ttl_iff (env : Env) (hooks : Hooks) (nif iph buf : Nat) (node : Node) :
    TtlKept (iphTtl (node.mem buf)) (ipInputRoute env hooks nif iph buf node).1
      ↔ ¬ Wrong env hooks nif iph buf node := by
  unfold ipInputRoute
  cases route : get node (iphDaddr (node.mem iph)) with
  | mk found node' =>
      have mem : node'.mem = node.mem := (congrArg (fun result => result.2.mem) route).symm
      cases found with
      | none =>
          refine iff_of_true trivial ?_
          rintro (⟨rt, there, route', -⟩ | ⟨rt, there, route', -⟩ | ⟨rt, there, later, copy, route', -⟩) <;>
            cases route.symm.trans route'
      | some rt =>
          dsimp only
          cases kind : ipChkAddr env.ifs (iphDaddr (node'.mem iph)) (node'.table.rt rt) with
          | badclass =>
              refine iff_of_true trivial ?_
              rintro (⟨rt, there, route', foreign, -⟩ | ⟨rt, there, route', foreign, -⟩ | ⟨rt, there, later, copy, route', foreign, -⟩) <;>
                cases route.symm.trans route' <;> cases kind.symm.trans foreign
          | none =>
              rw [if_neg (by decide), if_neg (by decide), ← mem, forward_buf env node' nif iph buf rt]
              refine not_congr ⟨?_, ?_⟩
              · rintro ⟨passes, zero⟩
                by_cases same : buf = iph
                · exact .wraps rt node' route kind passes same (mem ▸ zero same)
                · exact .stale rt node' route kind passes same
              · rintro (⟨rt, there, route', -, passes, same, zero⟩ | ⟨rt, there, route', -, passes, other⟩ |
                  ⟨rt, there, later, copy, route', foreign, -⟩) <;> cases route.symm.trans route'
                · exact ⟨passes, fun _ => mem.symm ▸ zero⟩
                · exact ⟨passes, fun same => (other same).elim⟩
                · cases kind.symm.trans foreign
          | local' =>
              rw [if_neg (by decide), if_pos (by decide)]
              have noCopy : ∃ later, localInput env hooks node' nif iph buf rt .local' = (none, later) := by
                cases delivered : localInput env hooks node' nif iph buf rt .local' with
                | mk copy later =>
                    cases copy with
                    | none => exact ⟨later, rfl⟩
                    | some copy => cases (local_copy_bytes env hooks _ _ nif iph buf rt _ copy delivered).2
              obtain ⟨later, delivered⟩ := noCopy
              rw [delivered]
              refine iff_of_true trivial ?_
              rintro (⟨rt, there, route', foreign, -⟩ | ⟨rt, there, route', foreign, -⟩ | ⟨rt, there, later, copy, route', foreign, -⟩) <;>
                cases route.symm.trans route' <;> cases kind.symm.trans foreign
          | brdcst =>
              rw [if_neg (by decide), if_pos (by decide)]
              cases delivered : localInput env hooks node' nif iph buf rt .brdcst with
              | mk copy later =>
                  cases copy with
                  | none =>
                      refine iff_of_true trivial ?_
                      rintro (⟨rt, there, route', foreign, -⟩ | ⟨rt, there, route', foreign, -⟩ |
                        ⟨rt, there, after, copy, route', -, delivered', -⟩) <;> cases route.symm.trans route'
                      · cases kind.symm.trans foreign
                      · cases kind.symm.trans foreign
                      · cases delivered.symm.trans delivered'
                  | some copy =>
                      have bytes := (local_copy_bytes env hooks _ _ nif iph buf rt _ copy delivered).1
                      dsimp only
                      rw [← mem, ← bytes, forward_copy]
                      refine not_congr ⟨fun passes => .copied rt node' later copy route kind delivered passes, ?_⟩
                      rintro (⟨rt, there, route', foreign, -⟩ | ⟨rt, there, route', foreign, -⟩ |
                        ⟨rt, there, after, copy, route', -, delivered', passes⟩) <;> cases route.symm.trans route'
                      · cases kind.symm.trans foreign
                      · cases kind.symm.trans foreign
                      · cases delivered.symm.trans delivered'
                        exact passes

-- Whatever is passed on carries the TTL of the datagram that was received, less one, and at least one.
def TtlRight (env : Env) (hooks : Hooks) (nif buf : Nat) (node : Node) : Prop :=
  ∀ f, (ipInput env hooks nif buf node).1 = some f → ∃ buf' node', Handed hooks nif buf node buf' node'
    ∧ (iphTtl f.dgram).toNat + 1 = (iphTtl (node'.mem buf')).toNat ∧ 1 ≤ (iphTtl f.dgram).toNat

theorem forwarded_ttl (env : Env) (hooks : Hooks) (nif buf : Nat) (node : Node) :
    TtlRight env hooks nif buf node
      ↔ ∀ buf' node', Handed hooks nif buf node buf' node' → ¬ Wrong env hooks nif buf buf' node' := by
  unfold TtlRight Handed ipInput
  by_cases accepted : Ip.ipInputAccepts (node.mem buf)
  · rw [if_neg (not_not.mpr accepted)]
    cases handed : masqInput hooks nif buf node with
    | mk found node' =>
        cases found with
        | none =>
            refine iff_of_true (fun f passed => by cases passed) ?_
            rintro buf' later ⟨-, handed'⟩
            cases handed'
        | some buf' =>
            have kept := route_ttl_iff env hooks nif buf buf' node'
            dsimp only
            constructor
            · rintro right buf'' later ⟨-, handed'⟩
              cases handed'
              refine kept.mp ?_
              cases passed : (ipInputRoute env hooks nif buf buf' node').1 with
              | none => trivial
              | some f =>
                  obtain ⟨buf'', later, ⟨-, handed'⟩, lowered⟩ := right f passed
                  cases handed'
                  exact lowered
            · intro right f passed
              have lowered := kept.mpr (right buf' node' ⟨accepted, rfl⟩)
              rw [passed] at lowered
              exact ⟨buf', node', ⟨accepted, rfl⟩, lowered⟩
  · rw [if_pos accepted]
    exact iff_of_true (fun f passed => by cases passed) fun _ _ handed => (accepted handed.1).elim

def attached (net : InAddr) : Netif :=
  ⟨true, true, false, 1500, 0, some ⟨net ||| 1, net, 0xffffff00, net, 0xffffff00, net ||| 0xff, net ||| 0xff⟩⟩

-- A gateway between 192.168.0.0 and 192.168.1.0.
def gateway : Env :=
  ⟨⟨fun nif => if nif = 0 then attached 0xc0a80000 else attached 0xc0a80100, [0, 1], 0, 2⟩, fun _ => true, fun _ => 0⟩

def routed : Table :=
  let flags := RTF_UP ||| RTF_STATIC
  let first := (routeAdd true Table.init ⟨0, 0xc0a80000, 0xffffff00, 0, flags, RT_TTL, 0⟩).2
  (routeAdd true first ⟨1, 0xc0a80100, 0xffffff00, 0, flags, RT_TTL, 0⟩).2

-- A UDP datagram from 192.168.0.7 lies in buffer 5.
def arriving (daddr : InAddr) (ttl : Byte) : Node :=
  let dgram := ipHeader 0xc0a80007 daddr [] 17 ⟨0, ttl, 0⟩ 1
  ⟨routed, fun id => if id = 5 then Ip.fillChksum dgram 10 else [], 0, 0, false, []⟩

def udpOnly : Hooks := ⟨none, fun buf node => (some buf, node), [⟨17, fun _ _ _ _ node => (0, node)⟩]⟩

-- TTL 0 goes on as 255, and the copy of a directed broadcast keeps its TTL; a datagram with TTL 2 is passed on with 1.
theorem forwarded_wrong :
    ((ipInput gateway udpOnly 0 5 (arriving 0xc0a80107 0)).1.map fun f => iphTtl f.dgram) = some 255
      ∧ ((ipInput gateway udpOnly 0 5 (arriving 0xc0a801ff 64)).1.map fun f => iphTtl f.dgram) = some 64
      ∧ ((ipInput gateway udpOnly 0 5 (arriving 0xc0a80107 2)).1.map fun f => iphTtl f.dgram) = some 1
      ∧ (ipInput gateway udpOnly 0 5 (arriving 0xc0a80107 1)).1 = none
      ∧ ¬ TtlRight gateway udpOnly 0 5 (arriving 0xc0a80107 0) ∧ ¬ TtlRight gateway udpOnly 0 5 (arriving 0xc0a801ff 64) := by
  have unmasked : ∀ node buf' node', Handed udpOnly 0 5 node buf' node' → node'.mem buf' = node.mem 5 := by
    rintro node buf' node' ⟨-, handed⟩
    cases handed
    rfl
  have passed : ∀ node ttl, (ipInput gateway udpOnly 0 5 node).1.map (fun f => iphTtl f.dgram) = some ttl →
      TtlRight gateway udpOnly 0 5 node → ttl.toNat + 1 = (iphTtl (node.mem 5)).toNat := by
    intro node ttl found right
    obtain ⟨f, some', rfl⟩ := Option.map_eq_some_iff.mp found
    obtain ⟨buf', node', handed, lowered, -⟩ := right f some'
    rw [unmasked node buf' node' handed] at lowered
    exact lowered
  have wrapped : (ipInput gateway udpOnly 0 5 (arriving 0xc0a80107 0)).1.map (fun f => iphTtl f.dgram) = some 255 := by
    decide +kernel
  have copied : (ipInput gateway udpOnly 0 5 (arriving 0xc0a801ff 64)).1.map (fun f => iphTtl f.dgram) = some 64 := by
    decide +kernel
  refine ⟨wrapped, copied, by decide +kernel, by decide +kernel, fun right => ?_, fun right => ?_⟩
  · exact absurd (passed _ _ wrapped right) (by decide +kernel)
  · exact absurd (passed _ _ copied right) (by decide +kernel)

-- One call from outside, one incoming datagram, one change of the table, or new bytes in the buffers.
inductive Stepped (node : Node) : Node → Prop where
  | call (env : Env) (call : Call) : Stepped node (runCall env node call)
  | input (env : Env) (hooks : Hooks) (made : HooksByCalls env hooks) (nif buf : Nat) :
      Stepped node (ipInput env hooks nif buf node).2
  | add (env : Env) (new : NewRt) : Stepped node (add env node new)
  | del (net mask : InAddr) : Stepped node (node.setTable (routeDel node.table net mask))
  | flush (nif : Nat) : Stepped node (node.setTable (routeFlush node.table nif))
  | memory (mem : Nat → Buffer) : Stepped node { node with mem := mem }

inductive Reached : Node → Prop where
  | start (mem : Nat → Buffer) (dgramid : BitVec 16) : Reached ⟨Table.init, mem, 0, dgramid, false, []⟩
  | step (node node' : Node) (before : Reached node) (stepped : Stepped node node') : Reached node'

def Installed (t : Table) (id : Nat) : Prop := (∃ b, id ∈ t.allroutes b) ∨ t.defroute = some id

theorem sound_set_table (node : Node) (table : Table)
    (counts : ∀ held, held.length + 3 < 2 ^ 15 → Counted held node.table → Counted held table) :
    Sound 3 node (node.setTable table) := by
  refine ⟨List.suffix_refl _, rfl, fun held room counted => ?_⟩
  change node.refused.length + held.length + 3 < 2 ^ 14 at room
  have few : (node.refused ++ held).length + 3 < 2 ^ 15 := by
    rw [List.length_append]
    omega
  exact counts _ few counted

theorem step_sound (node node' : Node) (stepped : Stepped node node') : Sound 3 node node' := by
  cases stepped with
  | call env call => exact sound_weaken 2 3 _ _ (call_sound env node call) (by omega)
  | input env hooks made nif buf => exact input_sound env hooks made nif buf node
  | add env new => exact sound_weaken 0 3 _ _ (sound_add env node new) (by omega)
  | del net mask =>
      exact sound_set_table node _ fun held few counted => del_counted held node.table net mask counted few
  | flush nif => exact sound_set_table node _ fun held few counted => flush_counted held node.table nif counted few
  | memory mem => exact sound_same 3 _ _ ⟨rfl, rfl, rfl⟩

theorem reached_counted (node : Node) (reached : Reached node) (few : node.refused.length + 3 < 2 ^ 14) :
    node.fault = false ∧ Counted node.refused node.table := by
  induction reached with
  | start mem dgramid => exact ⟨rfl, init_counted⟩
  | step node node' before stepped ih =>
      have sound := step_sound node node' stepped
      have fewer := sound.grows.length_le
      obtain ⟨faultless, counted⟩ := ih (by omega)
      have after := sound.counted [] (by simpa using few)
      rw [List.append_nil, List.append_nil] at after
      exact ⟨sound.faultless.trans faultless, after counted⟩

theorem installed_links (t : Table) (linked : Linked t) (id : Nat) (installed : Installed t id) : links t id = 1 := by
  obtain ⟨b, member⟩ | isDefault := installed
  · exact links_in_bucket t linked b id member
  · exact links_default t linked id isDefault

theorem installed_count (node : Node) (counted : Counted node.refused node.table) (id : Nat)
    (installed : Installed node.table id) :
    node.table.freed id = false ∧ (node.table.rt id).refcnt = BitVec.ofNat 16 (1 + node.refused.count id) := by
  have link := installed_links _ counted.linked id installed
  have counts := counted.counts id
  unfold owners at counts
  rw [link] at counts
  exact counts (by omega)

theorem count_same_iff (n m : Nat) (small : n < 2 ^ 14) (small' : m < 2 ^ 14) :
    BitVec.ofNat 16 (1 + n) = BitVec.ofNat 16 (1 + m) ↔ n = m := by
  rw [BitVec.toNat_eq, BitVec.toNat_ofNat, BitVec.toNat_ofNat]
  omega

-- A counter is off by the broadcasts that ip_send has refused while it held the route, and by nothing else.
theorem route_references (node node' : Node) (reached : Reached node) (stepped : Stepped node node')
    (few : node'.refused.length + 3 < 2 ^ 14) :
    (∀ id, Installed node.table id → Installed node'.table id →
        ((node'.table.rt id).refcnt = (node.table.rt id).refcnt ↔ node'.refused.count id = node.refused.count id))
      ∧ ∀ id, Installed node'.table id →
        node'.table.freed id = false ∧ ((node'.table.rt id).refcnt = 1 ↔ id ∉ node'.refused) := by
  have fewer := (step_sound node node' stepped).grows.length_le
  have before := (reached_counted node reached (by omega)).2
  have after := (reached_counted node' (.step node node' reached stepped) few).2
  have small : ∀ id, node'.refused.count id < 2 ^ 14 := fun id => by
    have := node'.refused.count_le_length (a := id)
    omega
  constructor
  · intro id installed installed'
    have bound := node.refused.count_le_length (a := id)
    rw [(installed_count node before id installed).2, (installed_count node' after id installed').2]
    exact count_same_iff _ _ (small id) (by omega)
  · intro id installed
    obtain ⟨alive, refs⟩ := installed_count node' after id installed
    refine ⟨alive, ?_⟩
    rw [refs, show (1 : Short) = BitVec.ofNat 16 (1 + 0) from rfl, count_same_iff _ _ (small id) (by omega)]
    exact List.count_eq_zero

-- A route to 192.168.0.0, and a datagram to the broadcast address of that net, or to a host on it.
def oneRoute : Node :=
  add gateway ⟨Table.init, fun _ => [], 0, 0, false, []⟩ ⟨0, 0xc0a80000, 0xffffff00, 0, RTF_UP ||| RTF_STATIC, RT_TTL, 0⟩

def sentTo (daddr : InAddr) : Node := runCall gateway oneRoute (.send 0xc0a80001 daddr [] 17 0 none)

theorem one_route_reached : Reached oneRoute := .step _ _ (.start (fun _ => []) 0) (.add gateway _)

theorem route_references_host :
    ((sentTo 0xc0a80007).table.rt 0).refcnt = 1 ∧ (sentTo 0xc0a80007).table.freed 0 = false := by
  have sent := route_references oneRoute (sentTo 0xc0a80007) one_route_reached (.call gateway _) (by decide +kernel)
  have installed : Installed (sentTo 0xc0a80007).table 0 := Or.inl ⟨routeHash 0xc0a80000, by decide +kernel⟩
  exact ⟨(sent.2 0 installed).2.mpr (by decide +kernel), (sent.2 0 installed).1⟩

-- Each refused broadcast costs a reference.
theorem route_references_leak :
    (oneRoute.table.rt 0).refcnt = 1 ∧ Installed (sentTo 0xc0a800ff).table 0
      ∧ ((sentTo 0xc0a800ff).table.rt 0).refcnt = 2
      ∧ ((runCall gateway (sentTo 0xc0a800ff) (.icmp .timex 0xc0a800ff (ipHeader 0xc0a80007 0xc0a80107 [] 17 defOpts 1) none)).table.rt 0).refcnt
        = 3 := by
  refine ⟨by decide +kernel, Or.inl ⟨routeHash 0xc0a80000, by decide +kernel⟩, by decide +kernel, by decide +kernel⟩

end MagxNet.Route
