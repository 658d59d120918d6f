import MagxNet.Tcp.Gate

set_option autoImplicit false

namespace MagxNet.Tcp

def INADDR_ANY : InAddr := 0

-- The network parts that ip_same_addr tries: the class C, B and A ones. A fourth round is left by the loop.
def netMasks : List InAddr := [0xffffff00, 0xffff0000, 0xff000000]

def sameNet (local' foreign : InAddr) : List InAddr → Bool
  | [] => false
  | mask :: masks =>
      if (local' ^^^ foreign) &&& mask ≠ 0 then sameNet local' foreign masks
      else decide (foreign &&& ~~~mask = 0) || decide (foreign &&& ~~~mask = ~~~mask)

def ipSameAddr (local' foreign : InAddr) : Bool :=
  decide (local' = foreign) || decide (local' = 0) || decide (foreign = 0) || decide (~~~foreign = 0)
    || sameNet local' foreign netMasks

section

variable (srcaddr : InAddr) (srcport : InPort) (dstaddr : InAddr) (dstport : InPort)

def boundHere (d : InData) : Bool := d.isbound && decide (d.sport = dstport) && ipSameAddr d.saddr dstaddr

def fromPeer (d : InData) : Bool := decide (d.dport = srcport) && ipSameAddr srcaddr d.daddr

-- The loop of in_data_lookup; i counts the sockets that were passed.
def lookupLoop : List World → Nat → Option (Nat × World) → Option (Nat × World) → Option (Nat × World)
  | [], _, deflt, dead => deflt <|> dead
  | w :: rest, i, deflt, dead =>
      if boundHere dstaddr dstport w.data then
        if w.data.isconnected then
          if fromPeer srcaddr srcport w.data then
            if w.data.dead then lookupLoop rest (i + 1) deflt (some (i, w)) else some (i, w)
          else lookupLoop rest (i + 1) deflt dead
        else if deflt.all fun found => decide (found.2.data.saddr = INADDR_ANY) then
          lookupLoop rest (i + 1) (some (i, w)) dead
        else lookupLoop rest (i + 1) deflt dead
      else lookupLoop rest (i + 1) deflt dead

def inDataLookup (datas : List World) : Option (Nat × World) :=
  lookupLoop srcaddr srcport dstaddr dstport datas 0 none none

end

inductive Handing where
  | dropped
  | reset
  | handed (i : Nat)
deriving DecidableEq, Repr

def landAttack (w : World) (pkt : Pkt) : Bool :=
  decide (w.tcb.state = .listen) && decide (pkt.saddr = pkt.daddr) && decide (pkt.tcph.srcport = pkt.tcph.dstport)

-- tcp_input up to the socket that inputFound goes on with.
def tcpInput (env : Env) (socks : List World) (pkt : Pkt) : Handing :=
  if pkt.runt then .dropped
  else if env.chksum pkt.tcph pkt.saddr pkt.daddr ≠ 0 then .dropped
  else match inDataLookup pkt.saddr pkt.tcph.srcport pkt.daddr pkt.tcph.dstport socks with
    | none => .reset
    | some (i, w) => if landAttack w pkt then .dropped else .handed i

-- Two addresses match when they are equal, when one of them is none, or when the foreign one is a broadcast address
-- or the number of a net with the local one in it.
def SameAddr (local' foreign : InAddr) : Prop :=
  local' = foreign ∨ local' = 0 ∨ foreign = 0 ∨ foreign = 0xffffffff
    ∨ ∃ mask ∈ netMasks, (local' ^^^ foreign) &&& mask = 0 ∧ (foreign &&& ~~~mask = 0 ∨ foreign &&& ~~~mask = ~~~mask)

-- The host part behind a longer network part is none or all ones if the one behind a shorter one is.
theorem host_shorter (x : InAddr) (long short : InAddr) (within : ~~~short &&& ~~~long = ~~~long)
    (host : x &&& ~~~short = 0 ∨ x &&& ~~~short = ~~~short) : x &&& ~~~long = 0 ∨ x &&& ~~~long = ~~~long := by
  have part : x &&& ~~~long = x &&& ~~~short &&& ~~~long := by rw [BitVec.and_assoc, within]
  obtain none' | ones := host
  · exact Or.inl (by rw [part, none']; exact BitVec.zero_and)
  · exact Or.inr (by rw [part, ones, within])

theorem same_net_iff (local' foreign : InAddr) (masks : List InAddr)
    (nested : masks.Pairwise fun long short => ~~~short &&& ~~~long = ~~~long) :
    sameNet local' foreign masks ↔ ∃ mask ∈ masks, (local' ^^^ foreign) &&& mask = 0
      ∧ (foreign &&& ~~~mask = 0 ∨ foreign &&& ~~~mask = ~~~mask) := by
  induction masks with
  | nil => simp [sameNet]
  | cons mask masks ih =>
      obtain ⟨shorter, rest⟩ := List.pairwise_cons.mp nested
      rw [sameNet]
      split
      · rename_i differ
        rw [ih rest]
        constructor
        · rintro ⟨found, member, agrees⟩
          exact ⟨found, List.mem_cons_of_mem _ member, agrees⟩
        · rintro ⟨found, member, agrees⟩
          obtain rfl | member := List.mem_cons.mp member
          · exact (differ agrees.1).elim
          · exact ⟨found, member, agrees⟩
      · rename_i agrees
        rw [Bool.or_eq_true, decide_eq_true_eq, decide_eq_true_eq]
        constructor
        · intro host
          exact ⟨mask, List.mem_cons_self, not_not.mp agrees, host⟩
        · rintro ⟨found, member, -, host⟩
          obtain rfl | member := List.mem_cons.mp member
          · exact host
          · exact host_shorter foreign mask found (shorter found member) host

theorem same_addr_iff (local' foreign : InAddr) : ipSameAddr local' foreign ↔ SameAddr local' foreign := by
  have ones : ~~~foreign = 0 ↔ foreign = 0xffffffff := by
    constructor
    · intro zero
      rw [← BitVec.not_not (b := foreign), zero]
      rfl
    · rintro rfl
      rfl
  unfold ipSameAddr SameAddr
  rw [Bool.or_eq_true, Bool.or_eq_true, Bool.or_eq_true, Bool.or_eq_true, decide_eq_true_eq, decide_eq_true_eq,
    decide_eq_true_eq, decide_eq_true_eq, same_net_iff local' foreign netMasks (by decide), ones, or_assoc, or_assoc, or_assoc]

section

variable (srcaddr : InAddr) (srcport : InPort) (dstaddr : InAddr) (dstport : InPort)

def LivePeer (w : World) : Prop :=
  boundHere dstaddr dstport w.data ∧ w.data.isconnected ∧ fromPeer srcaddr srcport w.data ∧ ¬ w.data.dead

def DeadPeer (w : World) : Prop :=
  boundHere dstaddr dstport w.data ∧ w.data.isconnected ∧ fromPeer srcaddr srcport w.data ∧ w.data.dead

def Unconnected (w : World) : Prop := boundHere dstaddr dstport w.data ∧ ¬ w.data.isconnected

-- What the loop knows about the sockets that it has passed.
structure Scanned (seen : List World) (deflt dead : Option (Nat × World)) : Prop where
  live : ∀ w ∈ seen, ¬ LivePeer srcaddr srcport dstaddr dstport w
  open' : ∀ i w, deflt = some (i, w) → seen[i]? = some w ∧ Unconnected dstaddr dstport w
    ∧ (w.data.saddr = INADDR_ANY → ∀ v ∈ seen, Unconnected dstaddr dstport v → v.data.saddr = INADDR_ANY)
  unopened : deflt = none → ∀ w ∈ seen, ¬ Unconnected dstaddr dstport w
  buried : ∀ i w, dead = some (i, w) → seen[i]? = some w ∧ DeadPeer srcaddr srcport dstaddr dstport w
  unburied : dead = none → ∀ w ∈ seen, ¬ DeadPeer srcaddr srcport dstaddr dstport w

-- A live connection comes first, then an unconnected socket, one with an address if there is any, and a dead
-- connection comes last.
inductive Chosen (socks : List World) (w : World) : Prop where
  | live (matches' : LivePeer srcaddr srcport dstaddr dstport w)
  | unconnected (matches' : Unconnected dstaddr dstport w) (none' : ∀ v ∈ socks, ¬ LivePeer srcaddr srcport dstaddr dstport v)
      (exact' : w.data.saddr = INADDR_ANY → ∀ v ∈ socks, Unconnected dstaddr dstport v → v.data.saddr = INADDR_ANY)
  | dead (matches' : DeadPeer srcaddr srcport dstaddr dstport w) (none' : ∀ v ∈ socks, ¬ LivePeer srcaddr srcport dstaddr dstport v)
      (closed : ∀ v ∈ socks, ¬ Unconnected dstaddr dstport v)

theorem seen_more (seen : List World) (w v : World) (i : Nat) (there : seen[i]? = some v) :
    (seen ++ [w])[i]? = some v := by
  rw [List.getElem?_append_left (List.getElem?_eq_some_iff.mp there).1]
  exact there

theorem seen_last (seen : List World) (w : World) : (seen ++ [w])[seen.length]? = some w := by
  simp

-- A socket that is passed by changes nothing.
theorem scanned_pass (seen : List World) (deflt dead : Option (Nat × World)) (w : World)
    (scanned : Scanned srcaddr srcport dstaddr dstport seen deflt dead) (live : ¬ LivePeer srcaddr srcport dstaddr dstport w)
    (unconnected : Unconnected dstaddr dstport w → ∃ i v, deflt = some (i, v) ∧ v.data.saddr ≠ INADDR_ANY)
    (alive : ¬ DeadPeer srcaddr srcport dstaddr dstport w) :
    Scanned srcaddr srcport dstaddr dstport (seen ++ [w]) deflt dead := by
  constructor
  · intro v member
    obtain member | rfl := List.mem_append.mp member |>.imp_right List.mem_singleton.mp
    · exact scanned.live v member
    · exact live
  · intro i v found
    obtain ⟨there, matches', exact'⟩ := scanned.open' i v found
    refine ⟨seen_more seen w v i there, matches', ?_⟩
    intro any u member isOpen
    obtain member | rfl := List.mem_append.mp member |>.imp_right List.mem_singleton.mp
    · exact exact' any u member isOpen
    · obtain ⟨j, v', same, bound⟩ := unconnected isOpen
      cases found.symm.trans same
      exact (bound any).elim
  · intro none' v member
    obtain member | rfl := List.mem_append.mp member |>.imp_right List.mem_singleton.mp
    · exact scanned.unopened none' v member
    · intro isOpen
      obtain ⟨j, v', same, -⟩ := unconnected isOpen
      cases none'.symm.trans same
  · intro i v found
    obtain ⟨there, matches'⟩ := scanned.buried i v found
    exact ⟨seen_more seen w v i there, matches'⟩
  · intro none' v member
    obtain member | rfl := List.mem_append.mp member |>.imp_right List.mem_singleton.mp
    · exact scanned.unburied none' v member
    · exact alive

-- An unconnected socket replaces one that is bound to no address.
theorem scanned_open (seen : List World) (deflt dead : Option (Nat × World)) (w : World)
    (scanned : Scanned srcaddr srcport dstaddr dstport seen deflt dead) (matches' : Unconnected dstaddr dstport w)
    (replaces : ∀ i v, deflt = some (i, v) → v.data.saddr = INADDR_ANY) :
    Scanned srcaddr srcport dstaddr dstport (seen ++ [w]) (some (seen.length, w)) dead := by
  constructor
  · intro v member
    obtain member | rfl := List.mem_append.mp member |>.imp_right List.mem_singleton.mp
    · exact scanned.live v member
    · exact fun live => matches'.2 live.2.1
  · rintro i v ⟨rfl, rfl⟩
    refine ⟨seen_last seen w, matches', ?_⟩
    intro any u member isOpen
    obtain member | rfl := List.mem_append.mp member |>.imp_right List.mem_singleton.mp
    · cases found : deflt with
      | none => exact (scanned.unopened found u member isOpen).elim
      | some first => exact (scanned.open' _ _ found).2.2 (replaces _ _ found) u member isOpen
    · exact any
  · intro none'
    cases none'
  · intro i v found
    obtain ⟨there, buried⟩ := scanned.buried i v found
    exact ⟨seen_more seen w v i there, buried⟩
  · intro none' v member
    obtain member | rfl := List.mem_append.mp member |>.imp_right List.mem_singleton.mp
    · exact scanned.unburied none' v member
    · exact fun buried => matches'.2 buried.2.1

theorem scanned_dead (seen : List World) (deflt dead : Option (Nat × World)) (w : World)
    (scanned : Scanned srcaddr srcport dstaddr dstport seen deflt dead)
    (matches' : DeadPeer srcaddr srcport dstaddr dstport w) :
    Scanned srcaddr srcport dstaddr dstport (seen ++ [w]) deflt (some (seen.length, w)) := by
  have notOpen : ¬ Unconnected dstaddr dstport w := fun isOpen => isOpen.2 matches'.2.1
  constructor
  · intro v member
    obtain member | rfl := List.mem_append.mp member |>.imp_right List.mem_singleton.mp
    · exact scanned.live v member
    · exact fun live => live.2.2.2 matches'.2.2.2
  · intro i v found
    obtain ⟨there, isOpen, exact'⟩ := scanned.open' i v found
    refine ⟨seen_more seen w v i there, isOpen, ?_⟩
    intro any u member isOpen
    obtain member | rfl := List.mem_append.mp member |>.imp_right List.mem_singleton.mp
    · exact exact' any u member isOpen
    · exact (notOpen isOpen).elim
  · intro none' v member
    obtain member | rfl := List.mem_append.mp member |>.imp_right List.mem_singleton.mp
    · exact scanned.unopened none' v member
    · exact notOpen
  · rintro i v ⟨rfl, rfl⟩
    exact ⟨seen_last seen w, matches'⟩
  · intro none'
    cases none'

-- What the lookup answers for the sockets.
def Answer (socks : List World) : Option (Nat × World) → Prop
  | some (i, w) => socks[i]? = some w ∧ Chosen srcaddr srcport dstaddr dstport socks w
  | none => ∀ w ∈ socks, ¬ LivePeer srcaddr srcport dstaddr dstport w ∧ ¬ Unconnected dstaddr dstport w
      ∧ ¬ DeadPeer srcaddr srcport dstaddr dstport w

theorem scanned_end (socks : List World) (deflt dead : Option (Nat × World))
    (scanned : Scanned srcaddr srcport dstaddr dstport socks deflt dead) :
    Answer srcaddr srcport dstaddr dstport socks (deflt <|> dead) := by
  cases opened : deflt with
  | some found =>
      obtain ⟨there, matches', exact'⟩ := scanned.open' _ _ opened
      exact ⟨there, .unconnected matches' scanned.live exact'⟩
  | none =>
      cases buried : dead with
      | some found =>
          obtain ⟨there, matches'⟩ := scanned.buried _ _ buried
          exact ⟨there, .dead matches' scanned.live (scanned.unopened opened)⟩
      | none => exact fun w member => ⟨scanned.live w member, scanned.unopened opened w member, scanned.unburied buried w member⟩

theorem lookup_answers (rest seen : List World) (deflt dead : Option (Nat × World))
    (scanned : Scanned srcaddr srcport dstaddr dstport seen deflt dead) :
    Answer srcaddr srcport dstaddr dstport (seen ++ rest)
      (lookupLoop srcaddr srcport dstaddr dstport rest seen.length deflt dead) := by
  induction rest generalizing seen deflt dead with
  | nil =>
      rw [List.append_nil]
      exact scanned_end srcaddr srcport dstaddr dstport seen deflt dead scanned
  | cons w rest ih =>
      have onward := ih (seen ++ [w])
      rw [List.append_assoc, List.singleton_append, List.length_append, List.length_singleton] at onward
      rw [lookupLoop]
      split
      · rename_i bound
        split
        · rename_i connected
          split
          · rename_i peer
            split
            · rename_i isDead
              exact onward _ _ (scanned_dead _ _ _ _ _ _ _ w scanned ⟨bound, connected, peer, isDead⟩)
            · rename_i alive
              exact ⟨by simp, .live ⟨bound, connected, peer, alive⟩⟩
          · rename_i stranger
            exact onward _ _ (scanned_pass _ _ _ _ _ _ _ w scanned (fun live => stranger live.2.2.1)
              (fun isOpen => (isOpen.2 connected).elim) fun buried => stranger buried.2.2.1)
        · rename_i unconnected
          split
          · rename_i replaces
            refine onward _ _ (scanned_open _ _ _ _ _ _ _ w scanned ⟨bound, unconnected⟩ ?_)
            rintro i v rfl
            simpa using replaces
          · rename_i keeps
            refine onward _ _ (scanned_pass _ _ _ _ _ _ _ w scanned (fun live => unconnected live.2.1) ?_
              fun buried => unconnected buried.2.1)
            intro _
            cases found : deflt with
            | none =>
                rw [found] at keeps
                exact (keeps rfl).elim
            | some first =>
                rw [found] at keeps
                exact ⟨first.1, first.2, rfl, by simpa using keeps⟩
      · rename_i unbound
        exact onward _ _ (scanned_pass _ _ _ _ _ _ _ w scanned (fun live => unbound live.1)
          (fun isOpen => (unbound isOpen.1).elim) fun buried => unbound buried.1)

theorem lookup_answer (socks : List World) :
    Answer srcaddr srcport dstaddr dstport socks (inDataLookup srcaddr srcport dstaddr dstport socks) := by
  have scanned : Scanned srcaddr srcport dstaddr dstport [] none none :=
    ⟨by simp, by simp, by simp, by simp, by simp⟩
  exact lookup_answers srcaddr srcport dstaddr dstport socks [] none none scanned

end

def BoundTo (pkt : Pkt) (w : World) : Prop :=
  w.data.isbound ∧ w.data.sport = pkt.tcph.dstport ∧ SameAddr w.data.saddr pkt.daddr

def PeerOf (pkt : Pkt) (w : World) : Prop := w.data.dport = pkt.tcph.srcport ∧ SameAddr pkt.saddr w.data.daddr

-- An address that is neither zero nor ends like a broadcast address or the number of a net.
def Plain (addr : InAddr) : Prop := addr &&& 0xff ≠ 0 ∧ addr &&& 0xff ≠ 0xff

structure Recipient (socks : List World) (pkt : Pkt) (w : World) : Prop where
  bound : BoundTo pkt w
  peer : w.data.isconnected → PeerOf pkt w
  exact' : w.data.isconnected → Plain pkt.daddr → w.data.saddr ≠ INADDR_ANY → Plain w.data.daddr →
    pkt.saddr ≠ INADDR_ANY → w.data.saddr = pkt.daddr ∧ w.data.daddr = pkt.saddr
  last : w.data.isconnected → w.data.dead → ∀ v ∈ socks, BoundTo pkt v →
    v.data.isconnected ∧ (PeerOf pkt v → v.data.dead)
  free : ¬ w.data.isconnected → ∀ v ∈ socks, BoundTo pkt v → v.data.isconnected → PeerOf pkt v → v.data.dead
  preferred : ¬ w.data.isconnected → w.data.saddr = INADDR_ANY →
    ∀ v ∈ socks, BoundTo pkt v → ¬ v.data.isconnected → v.data.saddr = INADDR_ANY

theorem bound_here_iff (pkt : Pkt) (w : World) :
    boundHere pkt.daddr pkt.tcph.dstport w.data ↔ BoundTo pkt w := by
  unfold boundHere BoundTo
  rw [Bool.and_eq_true, Bool.and_eq_true, decide_eq_true_eq, same_addr_iff, and_assoc]

theorem from_peer_iff (pkt : Pkt) (w : World) :
    fromPeer pkt.saddr pkt.tcph.srcport w.data ↔ PeerOf pkt w := by
  unfold fromPeer PeerOf
  rw [Bool.and_eq_true, decide_eq_true_eq, same_addr_iff]

theorem plain_same (local' foreign : InAddr) (plain : Plain foreign) (bound : local' ≠ 0) (same : SameAddr local' foreign) :
    local' = foreign := by
  obtain same | none' | none' | ones | ⟨mask, member, -, host⟩ := same
  · exact same
  · exact (bound none').elim
  · exact (plain.1 (by rw [none']; rfl)).elim
  · exact (plain.2 (by rw [ones]; rfl)).elim
  · have within : ~~~mask &&& ~~~0xffffff00 = ~~~(0xffffff00 : InAddr) := by
      simp only [netMasks, List.mem_cons, List.not_mem_nil, or_false] at member
      obtain rfl | rfl | rfl := member <;> rfl
    have host8 : ~~~(0xffffff00 : InAddr) = 0xff := by decide
    have short := host_shorter foreign 0xffffff00 mask within host
    rw [host8] at short
    obtain none' | ones := short
    · exact (plain.1 none').elim
    · exact (plain.2 ones).elim

theorem chosen_recipient (socks : List World) (pkt : Pkt) (w : World)
    (chosen : Chosen pkt.saddr pkt.tcph.srcport pkt.daddr pkt.tcph.dstport socks w) : Recipient socks pkt w := by
  have connected : boundHere pkt.daddr pkt.tcph.dstport w.data → fromPeer pkt.saddr pkt.tcph.srcport w.data →
      Plain pkt.daddr → w.data.saddr ≠ INADDR_ANY → Plain w.data.daddr → pkt.saddr ≠ INADDR_ANY →
        w.data.saddr = pkt.daddr ∧ w.data.daddr = pkt.saddr := by
    intro bound peer plainHere boundAddr plainThere known
    exact ⟨plain_same _ _ plainHere boundAddr ((bound_here_iff pkt w).mp bound).2.2,
      (plain_same _ _ plainThere known ((from_peer_iff pkt w).mp peer).2).symm⟩
  have noLive : (∀ v ∈ socks, ¬ LivePeer pkt.saddr pkt.tcph.srcport pkt.daddr pkt.tcph.dstport v) →
      ∀ v ∈ socks, BoundTo pkt v → v.data.isconnected → PeerOf pkt v → v.data.dead := by
    intro none' v member bound isConnected peer
    by_contra alive
    exact none' v member ⟨(bound_here_iff pkt v).mpr bound, isConnected, (from_peer_iff pkt v).mpr peer, alive⟩
  cases chosen with
  | live matches' =>
      obtain ⟨bound, isConnected, peer, alive⟩ := matches'
      exact ⟨(bound_here_iff pkt w).mp bound, fun _ => (from_peer_iff pkt w).mp peer, fun _ => connected bound peer,
        fun _ dead => (alive dead).elim, fun unconnected => (unconnected isConnected).elim,
        fun unconnected => (unconnected isConnected).elim⟩
  | unconnected matches' none' exact' =>
      obtain ⟨bound, unconnected⟩ := matches'
      refine ⟨(bound_here_iff pkt w).mp bound, fun isConnected => (unconnected isConnected).elim,
        fun isConnected => (unconnected isConnected).elim, fun isConnected => (unconnected isConnected).elim,
        fun _ => noLive none', ?_⟩
      intro _ any v member boundV unconnectedV
      exact exact' any v member ⟨(bound_here_iff pkt v).mpr boundV, unconnectedV⟩
  | dead matches' none' closed =>
      obtain ⟨bound, isConnected, peer, isDead⟩ := matches'
      refine ⟨(bound_here_iff pkt w).mp bound, fun _ => (from_peer_iff pkt w).mp peer, fun _ => connected bound peer, ?_,
        fun unconnected => (unconnected isConnected).elim, fun unconnected => (unconnected isConnected).elim⟩
      intro _ _ v member boundV
      have connectedV : v.data.isconnected := by
        by_contra unconnectedV
        exact closed v member ⟨(bound_here_iff pkt v).mpr boundV, unconnectedV⟩
      exact ⟨connectedV, noLive none' v member boundV connectedV⟩

-- Who gets an incoming segment, who does not, and when it is answered with a reset.
theorem demultiplexing (env : Env) (socks : List World) (pkt : Pkt) :
    match tcpInput env socks pkt with
    | .handed i => ∃ w, socks[i]? = some w ∧ Recipient socks pkt w
    | .reset => ∀ w ∈ socks, BoundTo pkt w → w.data.isconnected ∧ ¬ PeerOf pkt w
    | .dropped => pkt.runt ∨ env.chksum pkt.tcph pkt.saddr pkt.daddr ≠ 0 ∨ ∃ w ∈ socks, landAttack w pkt := by
  have answer := lookup_answer pkt.saddr pkt.tcph.srcport pkt.daddr pkt.tcph.dstport socks
  unfold tcpInput
  split_ifs with runt damaged
  · exact Or.inl runt
  · exact Or.inr (Or.inl damaged)
  · cases found : inDataLookup pkt.saddr pkt.tcph.srcport pkt.daddr pkt.tcph.dstport socks with
    | none =>
        rw [found] at answer
        intro w member bound
        obtain ⟨alive, unopened, unburied⟩ := answer w member
        have here := (bound_here_iff pkt w).mpr bound
        have connected : w.data.isconnected := by
          by_contra unconnected
          exact unopened ⟨here, unconnected⟩
        refine ⟨connected, fun peer => ?_⟩
        have there := (from_peer_iff pkt w).mpr peer
        by_cases isDead : w.data.dead
        · exact unburied ⟨here, connected, there, isDead⟩
        · exact alive ⟨here, connected, there, isDead⟩
    | some first =>
        rw [found] at answer
        obtain ⟨there, chosen⟩ := answer
        dsimp only
        by_cases land : landAttack first.2 pkt
        · rw [if_pos land]
          exact Or.inr (Or.inr ⟨first.2, List.mem_of_getElem? there, land⟩)
        · rw [if_neg land]
          exact ⟨first.2, there, chosen_recipient socks pkt first.2 chosen⟩

-- A connection from 10.0.0.1, port 1024, to 10.0.1.2, port 80.
def routedConn : World := { openConn 100 with data.saddr := 0x0a000001, data.daddr := 0x0a000102 }

def strayFrom (saddr daddr : InAddr) : Pkt :=
  { peerSeg 5001 1001 TCPF_ACK 100 0 [1, 2, 3] with saddr := saddr, daddr := daddr }

-- The connection also gets segments from 0.0.0.0 and to 255.255.255.255, and a socket that does not listen gets one.
theorem demultiplexing_wild :
    routedConn.data.isconnected ∧ routedConn.data.saddr = 0x0a000001 ∧ routedConn.data.daddr = 0x0a000102
      ∧ tcpInput plainEnv [routedConn] (strayFrom 0x0a000102 0x0a000001) = .handed 0
      ∧ tcpInput plainEnv [routedConn] (strayFrom 0 0x0a000001) = .handed 0
      ∧ tcpInput plainEnv [routedConn] (strayFrom 0x0a000102 0xffffffff) = .handed 0
      ∧ tcpInput plainEnv [routedConn] (strayFrom 0x0a000102 0x0a0000ff) = .handed 0
      ∧ (tcpAttach 1024 quietNet).tcb.state = .closed
      ∧ tcpInput plainEnv [tcpAttach 1024 quietNet] (strayFrom 0x0a000102 0x0a000001) = .handed 0 := by
  decide +kernel

end MagxNet.Tcp
