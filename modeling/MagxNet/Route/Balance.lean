import MagxNet.Route.Refs

set_option autoImplicit false

namespace MagxNet.Route

open Bytes
open Ip (iphSaddr iphDaddr iphProto iphFragoff iphLength ipHdrlen ipInputAccepts IP_DF IP_FRAGOFF IP_MINLEN)

-- A call that fetches routes depth deep, and keeps none but those in the record of refused broadcasts.
structure Sound (depth : Nat) (node node' : Node) : Prop where
  grows : node.refused <:+ node'.refused
  faultless : node'.fault = node.fault
  counted : ∀ held, node'.refused.length + held.length + depth < 2 ^ 14 →
    Counted (node.refused ++ held) node.table → Counted (node'.refused ++ held) node'.table

structure SameRoutes (node node' : Node) : Prop where
  table : node'.table = node.table
  refused : node'.refused = node.refused
  fault : node'.fault = node.fault

theorem sound_same (depth : Nat) (node node' : Node) (same : SameRoutes node node') : Sound depth node node' := by
  refine ⟨same.refused ▸ List.suffix_refl _, same.fault, fun held _ counted => ?_⟩
  rw [same.table, same.refused]
  exact counted

theorem sound_refl (depth : Nat) (node : Node) : Sound depth node node := sound_same depth node node ⟨rfl, rfl, rfl⟩

theorem sound_trans (depth : Nat) (node node' node'' : Node) (first : Sound depth node node')
    (second : Sound depth node' node'') : Sound depth node node'' := by
  refine ⟨first.grows.trans second.grows, second.faultless.trans first.faultless, fun held room counted => ?_⟩
  have fewer := second.grows.length_le
  exact second.counted held room (first.counted held (by omega) counted)

theorem sound_weaken (depth more : Nat) (node node' : Node) (sound : Sound depth node node') (deeper : depth ≤ more) :
    Sound more node node' :=
  ⟨sound.grows, sound.faultless, fun held room => sound.counted held (by omega)⟩

theorem sound_ask (depth : Nat) (env : Env) (node : Node) : Sound depth node (ask env node).2 :=
  sound_same depth _ _ ⟨rfl, rfl, rfl⟩

theorem get_some_counted (node node' : Node) (daddr : InAddr) (rt : Nat) (held : List Nat)
    (found : get node daddr = (some rt, node')) (counted : Counted (node.refused ++ held) node.table) :
    Counted (rt :: (node'.refused ++ held)) node'.table := by
  cases found' : routeGet node.table daddr with
  | mk id table =>
      unfold get at found
      rw [found'] at found
      cases found
      have more := get_counted _ node.table daddr rt counted (by rw [found'])
      rw [found'] at more
      exact more

theorem get_records (node node' : Node) (daddr : InAddr) (rt : Option Nat) (found : get node daddr = (rt, node')) :
    node'.refused = node.refused ∧ node'.fault = node.fault := by
  cases found
  exact ⟨rfl, rfl⟩

-- What is fetched first and given back last.
theorem sound_bracket (depth : Nat) (node node' node'' : Node) (daddr : InAddr) (rt : Nat)
    (found : get node daddr = (some rt, node')) (body : Sound depth node' node'') :
    Sound (depth + 1) node (deref node'' rt) := by
  obtain ⟨record, fault⟩ := get_records _ _ _ _ found
  refine ⟨record ▸ body.grows, body.faultless.trans fault, fun held room counted => ?_⟩
  change node''.refused.length + held.length + (depth + 1) < 2 ^ 14 at room
  have got := get_some_counted node node' daddr rt held found counted
  have inside := body.counted (rt :: held) (by rw [List.length_cons]; omega)
    (counted_perm _ _ _ got List.perm_middle.symm)
  have few : (node''.refused ++ held).length + 2 < 2 ^ 15 := by
    rw [List.length_append]
    omega
  exact deref_counted _ _ rt (counted_perm _ _ _ inside List.perm_middle) few

theorem sound_missed (depth : Nat) (node node' : Node) (daddr : InAddr) (missed : get node daddr = (none, node')) :
    Sound depth node node' := by
  obtain ⟨record, fault⟩ := get_records _ _ _ _ missed
  refine ⟨record ▸ List.suffix_refl _, fault, fun held _ counted => ?_⟩
  rw [record]
  unfold get at missed
  have none' : (routeGet node.table daddr).1 = none := congrArg Prod.fst missed
  have table := get_none_counted _ node.table daddr counted none'
  have rest : node.setTable (routeGet node.table daddr).2 = node' := congrArg Prod.snd missed
  rw [← rest]
  exact table

-- The broadcast that is not allowed: the reference goes into the record.
theorem sound_refuse (depth : Nat) (node node' : Node) (daddr : InAddr) (rt : Nat)
    (found : get node daddr = (some rt, node')) : Sound depth node (refuse node' rt) := by
  obtain ⟨record, fault⟩ := get_records _ _ _ _ found
  exact ⟨record ▸ List.suffix_cons rt _, fault, fun held _ counted => get_some_counted node node' daddr rt held found counted⟩

theorem sound_add (env : Env) (node : Node) (new : NewRt) : Sound 0 node (add env node new) := by
  refine ⟨List.suffix_refl _, rfl, fun held room counted => ?_⟩
  change node.refused.length + held.length + 0 < 2 ^ 14 at room
  have few : (node.refused ++ held).length + 3 < 2 ^ 15 := by
    rw [List.length_append]
    omega
  exact add_counted _ _ _ new counted few

theorem probe_sound {α : Type} (node : Node) (daddr : InAddr) (look : Rt → α) :
    Sound 1 node (probe node daddr look).2 := by
  unfold probe
  split
  · rename_i missed
    exact sound_missed 1 _ _ daddr missed
  · rename_i found
    exact sound_bracket 0 _ _ _ daddr _ found (sound_refl 0 _)

theorem local_addr_sound (env : Env) (node : Node) (dstaddr : InAddr) : Sound 1 node (ipLocalAddr env node dstaddr).2 := by
  unfold ipLocalAddr
  split
  · exact sound_refl 1 node
  · split
    · rename_i missed
      exact sound_missed 1 _ _ _ missed
    · rename_i found
      exact sound_bracket 0 _ _ _ _ _ found (sound_refl 0 _)

section

variable (depth : Nat) (icmp : IcmpSend) (quiet : ∀ type daddr buf gw node, Sound depth node (icmp type daddr buf gw node))

include quiet

theorem frag_sound (env : Env) (node : Node) (nif : Nat) (dgram : Buffer) :
    Sound depth node (ipFrag icmp env node nif dgram).2 := by
  unfold ipFrag
  split
  · exact quiet _ _ _ _ node
  · exact sound_same depth _ _ ⟨rfl, rfl, rfl⟩

theorem emit_sound (env : Env) (node node' : Node) (daddr : InAddr) (rt : Nat) (addrtype : AddrType) (dgram : Buffer)
    (found : get node daddr = (some rt, node')) : Sound (depth + 1) node (ipEmit icmp env node' rt addrtype dgram).2 := by
  rw [emit_alone]
  exact sound_bracket depth _ _ _ daddr rt found (frag_sound depth icmp quiet env node' _ dgram)

theorem output_sound (env : Env) (buf : Buffer) (node : Node) : Sound (depth + 1) node (ipOutputWith icmp env buf node).2 := by
  unfold ipOutputWith
  split
  · rename_i node' missed
    exact sound_trans _ _ _ _ (sound_missed _ _ _ _ missed) (sound_weaken depth _ _ _ (quiet _ _ _ _ node') (by omega))
  · rename_i rt node' found
    have back := sound_bracket depth _ _ _ _ rt found (sound_refl depth node')
    dsimp only
    split
    · exact back
    · split
      · exact back
      · exact emit_sound depth icmp quiet env node node' _ rt _ _ found

theorem send_sound (env : Env) (saddr daddr : InAddr) (buf : Buffer) (proto : Proto) (flags : Short)
    (opts : Option IpOptions) (node : Node) :
    Sound (depth + 1) node (ipSendWith icmp env saddr daddr buf proto flags opts node).2 := by
  unfold ipSendWith
  dsimp only
  split
  · exact sound_ask _ env node
  · have start : Sound (depth + 1) node { (ask env node).2 with dgramid := node.dgramid + 1 } :=
      sound_same _ _ _ ⟨rfl, rfl, rfl⟩
    refine sound_trans _ _ _ _ start ?_
    split
    · rename_i node' missed
      exact sound_trans _ _ _ _ (sound_missed _ _ _ _ missed) (sound_weaken depth _ _ _ (quiet _ _ _ _ node') (by omega))
    · rename_i rt node' found
      have back := sound_bracket depth _ _ _ _ rt found (sound_refl depth node')
      split
      · exact back
      · split
        · exact sound_refuse _ _ _ _ rt found
        · split
          · exact back
          · exact emit_sound depth icmp quiet env _ node' _ rt _ _ found

end

theorem send_icmp_sound (env : Env) (saddr daddr : InAddr) (buf : Buffer) (node : Node) :
    Sound 1 node (ipSendIcmp env saddr daddr buf node) :=
  send_sound 0 _ (fun _ _ _ _ node => sound_refl 0 node) env saddr daddr buf IPPROTO_ICMP 0 none node

theorem icmp_source_sound (env : Env) (node : Node) (dgram : Buffer) : Sound 1 node (icmpSource env node dgram).2 := by
  unfold icmpSource
  dsimp only
  split
  · exact local_addr_sound env node _
  · exact sound_refl 1 node

theorem do_send_sound (depth : Nat) (env : Env) (node : Node) (type : IcmpType) (buf1 : Buffer) :
    Sound depth node (doSend env node type buf1).2 := by
  cases type <;> exact sound_same depth _ _ ⟨rfl, rfl, rfl⟩

theorem icmp_send_sound (env : Env) (type : IcmpType) (daddr : InAddr) (buf1 : Buffer) (gw : Option Buffer) (node : Node) :
    Sound 1 node (icmpSend env type daddr buf1 gw node) := by
  unfold icmpSend icmpSendWith
  split
  · exact sound_refl 1 node
  · have source := icmp_source_sound env node buf1
    have built := do_send_sound 1 env (icmpSource env node buf1).2 type buf1
    dsimp only
    split
    · rename_i made
      rw [made] at built
      exact sound_trans _ _ _ _ source built
    · rename_i nbuf node' made
      rw [made] at built
      have before := sound_trans _ _ _ _ source built
      refine sound_trans _ _ _ _ before (sound_trans _ _ _ _ ?_ (send_icmp_sound env _ daddr nbuf _))
      split
      · split
        · exact sound_trans _ _ _ _ (sound_ask 1 env node') (send_icmp_sound env _ _ nbuf _)
        · exact sound_ask 1 env node'
      · exact sound_refl 1 node'

theorem unreach_sound (buf : Buffer) (len : Nat) (node : Node) : Sound 1 node (doUnreach buf len node).2 := by
  unfold doUnreach
  split_ifs
  · exact sound_refl 1 node
  · split
    · rename_i missed
      exact sound_missed 1 _ _ _ missed
    · rename_i rt node' found
      have rejected : Sound 0 node' (node'.setTable (setReject node'.table rt)) :=
        ⟨List.suffix_refl _, rfl, fun held _ counted => reject_counted _ _ rt counted⟩
      exact sound_bracket 0 _ _ _ _ rt found rejected
  · exact sound_refl 1 node

theorem redir_sound (env : Env) (buf : Buffer) (nif len : Nat) (node : Node) :
    Sound 1 node (doRedir env buf nif len node).2 := by
  have gw := probe_sound node (redirGw buf) goodGw
  have sender := sound_trans _ _ _ _ gw (probe_sound _ (iphDaddr (quoted buf)) (sentBy (iphSaddr buf)))
  unfold doRedir
  dsimp only
  split_ifs
  · exact sound_refl 1 node
  · exact sound_refl 1 node
  · exact gw
  · exact sender
  · exact sound_trans _ _ _ _ sender (sound_weaken 0 1 _ _ (sound_add env _ _) (by omega))
  · exact sound_trans _ _ _ _ sender (sound_weaken 0 1 _ _ (sound_add env _ _) (by omega))

theorem arp_sound (root valid inet : Bool) (praddr : InAddr) (node : Node) :
    Sound 1 node (arpIoctl root valid inet praddr node).2.2 := by
  have probed := probe_sound node praddr fun rt => if rt.has RTF_GATEWAY then none else some rt.nif
  unfold arpIoctl
  split_ifs
  · split
    · rename_i found
      rw [found] at probed
      exact probed
    · rename_i found
      rw [found] at probed
      exact probed
  · exact sound_refl 1 node
  · exact sound_refl 1 node
  · exact sound_refl 1 node

-- The functions through which the rest of the kernel comes to the routes.
inductive Call where
  | send (saddr daddr : InAddr) (buf : Buffer) (proto : Proto) (flags : Short) (opts : Option IpOptions)
  | output (buf : Buffer)
  | icmp (type : IcmpType) (daddr : InAddr) (buf1 : Buffer) (buf2 : Option Buffer)
  | redir (buf : Buffer) (nif len : Nat)
  | unreach (buf : Buffer) (len : Nat)
  | mss (faddr : InAddr)
  | arp (root valid inet : Bool) (praddr : InAddr)
  | localAddr (dstaddr : InAddr)

def runCall (env : Env) (node : Node) : Call → Node
  | .send saddr daddr buf proto flags opts => (ipSend env saddr daddr buf proto flags opts node).2
  | .output buf => (ipOutput env buf node).2
  | .icmp type daddr buf1 buf2 => icmpSend env type daddr buf1 buf2 node
  | .redir buf nif len => (doRedir env buf nif len node).2
  | .unreach buf len => (doUnreach buf len node).2
  | .mss faddr => (tcpMss faddr node).2
  | .arp root valid inet praddr => (arpIoctl root valid inet praddr node).2.2
  | .localAddr dstaddr => (ipLocalAddr env node dstaddr).2

def runCalls (env : Env) (node : Node) (calls : List Call) : Node := calls.foldl (runCall env) node

theorem call_sound (env : Env) (node : Node) (call : Call) : Sound 2 node (runCall env node call) := by
  cases call with
  | send saddr daddr buf proto flags opts => exact send_sound 1 _ (icmp_send_sound env) env saddr daddr buf proto flags opts node
  | output buf => exact output_sound 1 _ (icmp_send_sound env) env buf node
  | icmp type daddr buf1 buf2 => exact sound_weaken 1 2 _ _ (icmp_send_sound env type daddr buf1 buf2 node) (by omega)
  | redir buf nif len => exact sound_weaken 1 2 _ _ (redir_sound env buf nif len node) (by omega)
  | unreach buf len => exact sound_weaken 1 2 _ _ (unreach_sound buf len node) (by omega)
  | mss faddr => exact sound_weaken 1 2 _ _ (probe_sound node faddr _) (by omega)
  | arp root valid inet praddr => exact sound_weaken 1 2 _ _ (arp_sound root valid inet praddr node) (by omega)
  | localAddr dstaddr => exact sound_weaken 1 2 _ _ (local_addr_sound env node dstaddr) (by omega)

theorem calls_sound (env : Env) (node : Node) (calls : List Call) : Sound 2 node (runCalls env node calls) := by
  induction calls generalizing node with
  | nil => exact sound_refl 2 node
  | cons call calls ih => exact sound_trans _ _ _ _ (call_sound env node call) (ih _)

-- Code that touches the routes by some of those calls only.
def ByCalls (env : Env) (node node' : Node) : Prop := ∃ calls, SameRoutes (runCalls env node calls) node'

structure HooksByCalls (env : Env) (hooks : Hooks) : Prop where
  masq : ∀ masq, hooks.masq = some masq → ∀ nif buf node, ByCalls env node (masq nif buf node).2
  defrag : ∀ buf node, ByCalls env node (hooks.defrag buf node).2
  protos : ∀ p ∈ hooks.protos, ∀ nif buf saddr daddr node, ByCalls env node (p.input nif buf saddr daddr node).2

theorem by_calls_sound (env : Env) (node node' : Node) (made : ByCalls env node node') : Sound 2 node node' := by
  obtain ⟨calls, same⟩ := made
  exact sound_trans _ _ _ _ (calls_sound env node calls) (sound_same 2 _ _ same)

theorem deliver_sound (env : Env) (nif iph buf : Nat) (protos : List Proto') (node : Node)
    (made : ∀ p ∈ protos, ∀ nif buf saddr daddr node, ByCalls env node (p.input nif buf saddr daddr node).2) :
    Sound 2 node (deliver env nif iph buf protos node) := by
  induction protos generalizing node with
  | nil => exact sound_weaken 1 2 _ _ (icmp_send_sound env _ _ _ _ node) (by omega)
  | cons p rest ih =>
      have later := fun node => ih node fun q member => made q (List.mem_cons_of_mem _ member)
      rw [deliver]
      split
      · have input := by_calls_sound env _ _ (made p List.mem_cons_self nif buf (iphSaddr (node.mem iph))
          (iphDaddr (node.mem iph)) node)
        dsimp only
        split
        · exact input
        · exact sound_trans _ _ _ _ input (later _)
      · exact later node

theorem local_sound (env : Env) (hooks : Hooks) (made : HooksByCalls env hooks) (node : Node) (nif iph buf rt : Nat)
    (addrtype : AddrType) : Sound 2 node (localInput env hooks node nif iph buf rt addrtype).2 := by
  have copied : Sound 2 node (ipBrdcstCopy env node (node.mem buf) nif (node.table.rt rt) addrtype).2 := by
    unfold ipBrdcstCopy
    split
    · exact sound_refl 2 node
    · exact sound_ask 2 env node
  unfold localInput
  dsimp only
  have defragged := by_calls_sound env _ _ (made.defrag buf (ipBrdcstCopy env node (node.mem buf) nif (node.table.rt rt) addrtype).2)
  split
  · rename_i found
    rw [found] at defragged
    exact sound_trans _ _ _ _ copied defragged
  · rename_i found
    rw [found] at defragged
    exact sound_trans _ _ _ _ copied (sound_trans _ _ _ _ defragged (deliver_sound env nif iph _ _ _ made.protos))

-- forward gives the route back on every way.
theorem forward_sound (env : Env) (node node' node'' : Node) (daddr : InAddr) (nif iph rt : Nat) (addrtype : AddrType)
    (buf : Holder) (found : get node daddr = (some rt, node')) (before : Sound 2 node' node'') :
    Sound 3 node (forward env node'' nif iph rt addrtype buf).2 := by
  have lowered : Sound 2 node' (decTtl node'' iph) := sound_trans _ _ _ _ before (sound_same 2 _ _ ⟨rfl, rfl, rfl⟩)
  have answered : ∀ after type daddr dgram gw, Sound 2 node' after → Sound 2 node' (icmpSend env type daddr dgram gw after) :=
    fun after type daddr dgram gw sound =>
      sound_trans _ _ _ _ sound (sound_weaken 1 2 _ _ (icmp_send_sound env type daddr dgram gw after) (by omega))
  have asked := sound_trans _ _ _ _ lowered (sound_ask 2 env (decTtl node'' iph))
  unfold forward
  dsimp only
  split
  · exact sound_bracket 2 _ _ _ _ rt found (answered _ _ _ _ _ lowered)
  · split
    · split
      · exact sound_bracket 2 _ _ _ _ rt found (answered _ _ _ _ _ asked)
      · refine sound_bracket 2 _ _ _ _ rt found ?_
        split
        · exact asked
        · exact lowered
    · have framed := frag_sound 1 _ (icmp_send_sound env) env (decTtl node'' iph) ((decTtl node'' iph).table.rt rt).nif
        (buf.bytes (decTtl node'' iph))
      exact sound_bracket 2 _ _ _ _ rt found (sound_trans _ _ _ _ lowered (sound_weaken 1 2 _ _ framed (by omega)))

theorem input_sound (env : Env) (hooks : Hooks) (made : HooksByCalls env hooks) (nif buf : Nat) (node : Node) :
    Sound 3 node (ipInput env hooks nif buf node).2 := by
  have masqued : Sound 2 node (masqInput hooks nif buf node).2 := by
    unfold masqInput
    split
    · exact sound_refl 2 node
    · rename_i masq some'
      exact by_calls_sound env _ _ (made.masq masq some' nif buf node)
  unfold ipInput
  split
  · exact sound_refl 3 node
  · split
    · rename_i handed
      rw [handed] at masqued
      exact sound_weaken 2 3 _ _ masqued (by omega)
    · rename_i buf' node' handed
      rw [handed] at masqued
      refine sound_trans _ _ _ _ (sound_weaken 2 3 _ _ masqued (by omega)) ?_
      unfold ipInputRoute
      split
      · rename_i missed
        exact sound_trans _ _ _ _ (sound_missed 3 _ _ _ missed)
          (sound_weaken 1 3 _ _ (icmp_send_sound env _ _ _ none _) (by omega))
      · rename_i rt found' found
        dsimp only
        split
        · exact sound_bracket 2 _ _ _ _ rt found (sound_refl 2 _)
        · split
          · have delivered := local_sound env hooks made found' nif buf buf' rt
              (ipChkAddr env.ifs (iphDaddr (found'.mem buf)) (found'.table.rt rt))
            split
            · rename_i node'' ended
              rw [ended] at delivered
              exact sound_bracket 2 _ _ _ _ rt found delivered
            · rename_i copy node'' ended
              rw [ended] at delivered
              exact forward_sound env _ _ _ _ nif buf rt _ _ found delivered
          · exact forward_sound env _ _ _ _ nif buf rt _ _ found (sound_refl 2 _)

end MagxNet.Route
