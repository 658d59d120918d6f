import MagxNet.Arp.Sizes

set_option autoImplicit false

namespace MagxNet.Arp

open Bytes (Byte Buffer)

def ETH_ALEN : Nat := 6

-- The length of an address of IP, the one protocol that arp_myaddr knows.
def IP_ALEN : Nat := 4

inductive Place where
  | packet
  | myaddr
  | hwlocal
  | praddr (are : Nat)
  | hwaddr (are : Nat)
deriving DecidableEq, Repr

-- What bytes are read or written for: the header, a lookup, a hardware address, the question
-- whether the packet is for this host, a protocol address of the answer.
inductive Role where
  | header
  | key
  | hardware
  | forme
  | reply
deriving DecidableEq, Repr

structure Access where
  place : Place
  start : Nat
  len : Nat
  role : Role
deriving DecidableEq, Repr

def roomOf (buf : Buffer) : Place → Nat
  | .packet => buf.length
  | .myaddr => IP_ALEN
  | _ => ADR_SIZE

section

variable (env : Env) (s : Cache) (nif : Nat) (buf : Buffer)

-- The entries of a chain whose addresses are compared, up to the one that is found.
def compared (stop candidate : Nat → Bool) : List Nat → List Nat
  | [] => []
  | curr :: next => (if candidate curr then [curr] else []) ++ if stop curr then [] else compared stop candidate next

-- The hash takes a long from the address, whatever its length, and so do the comparisons of Pure C.
def lookupAccesses (nocreat : Bool) (nif : Option Nat) (p : Nat) : List Access :=
  let type := arphPrtype buf
  let len := arphPrlen buf
  let addr := buf.drop p
  let width := if env.gnuc then len else 4
  let stop := fun are => prMatches env (s.entry are) nif type len addr
  let candidate := fun are => (s.entry are).flags.prcom && decide ((s.entry are).prtype = type)
    && nif.all fun n => decide ((s.entry are).nif = n)
  [⟨.packet, p, 4, .key⟩]
    ++ (compared stop candidate (s.arptab (arpHash addr len))).flatMap
      (fun are => [⟨.packet, p, width, .key⟩, ⟨.praddr are, 0, width, .key⟩])
    ++ match (walk stop (s.arptab (arpHash addr len)) s).2, nif with
      | none, some _ => if nocreat || !env.kmalloc then [] else [⟨.packet, p, len, .key⟩, ⟨.praddr s.allocs, 0, len, .key⟩]
      | _, _ => []

-- The new hardware address, with the hashes of the old and of the new one.
def updateAccesses (are : Nat) : List Access :=
  [⟨.hwaddr are, 0, 4, .key⟩, ⟨.packet, ARP_SHW, arphHwlen buf, .hardware⟩, ⟨.hwaddr are, 0, arphHwlen buf, .hardware⟩]

def replyAccesses (spr shw : Place) : List Access :=
  [⟨.packet, ARP_DPR buf, arphPrlen buf, .reply⟩, ⟨.packet, ARP_SPR buf, arphPrlen buf, .reply⟩,
    ⟨spr, 0, arphPrlen buf, .reply⟩, ⟨.packet, ARP_SHW, arphHwlen buf, .hardware⟩, ⟨shw, 0, arphHwlen buf, .hardware⟩]

def answerAccesses (myaddr : Buffer) : List Access :=
  if arphOp buf = AROP_ARPREQ then
    [⟨.packet, ARP_DHW buf, arphHwlen buf, .hardware⟩, ⟨.packet, ARP_SHW, arphHwlen buf, .hardware⟩]
      ++ if forme buf myaddr then replyAccesses buf .myaddr .hwlocal
        else
          lookupAccesses env s buf true none (ARP_DPR buf)
            ++ match arpLookup env s true false none (arphPrtype buf) (arphPrlen buf) (buf.drop (ARP_DPR buf)) with
              | some (s, some are) =>
                  if (s.entry are).flags.publ && isCom (s.entry are) then replyAccesses buf (.praddr are) (.hwaddr are) else []
              | _ => []
  else []

def headerAccesses : List Access := if ARP_HLEN ≤ buf.length then [⟨.packet, 0, ARP_HLEN, .header⟩] else []

-- The entry of the sender, as arp_input looks for it.
def senderLookup (myaddr : Buffer) : Option (Cache × Option Nat) :=
  arpLookup env s (!forme buf myaddr) (forme buf myaddr) (some nif) (arphPrtype buf) (arphPrlen buf) (buf.drop (ARP_SPR buf))

def arpInputAccesses : List Access :=
  headerAccesses buf
    ++ match arpMyaddr env nif (arphPrtype buf) with
      | none => []
      | some myaddr =>
          if goodLength buf && mine env nif buf then
            [⟨.myaddr, 0, arphPrlen buf, .forme⟩, ⟨.packet, ARP_DPR buf, arphPrlen buf, .forme⟩]
              ++ lookupAccesses env s buf (!forme buf myaddr) (some nif) (ARP_SPR buf)
              ++ match senderLookup env s nif buf myaddr with
                | none => []
                | some (s, none) => answerAccesses env s buf myaddr
                | some (s, some are) =>
                    updateAccesses buf are ++ answerAccesses env (arpUpdate env s are (setHwaddr buf)) buf myaddr
          else []

-- praddr.len of the entry that arp_input creates or updates; a new one gets it before its address is copied.
def arpInputLen : Option Nat :=
  match arpMyaddr env nif (arphPrtype buf) with
  | none => none
  | some myaddr =>
      if goodLength buf && mine env nif buf then
        match senderLookup env s nif buf myaddr with
        | none => some (arphPrlen buf)
        | some (s, found) => found.map fun are => (s.entry are).praddr.len
      else none

def rarpUsable (e : Entry) : Bool := e.flags.prcom && !e.flags.norarp && decide (e.prtype = arphPrtype buf)

-- The entry that rarp_input answers from.
def rarpAnswer : Option Nat :=
  if goodLength buf && (arpMyaddr env nif (arphPrtype buf)).isSome && decide (arphOp buf = AROP_RARPREQ) && mine env nif buf then
    match rarpLookup s nif (arphHwtype buf) (arphHwlen buf) (buf.drop ARP_SHW) with
    | (_, none) => none
    | (s, some are) => if rarpUsable buf (s.entry are) then some are else none
  else none

def rarpLookupAccesses : List Access :=
  let addr := buf.drop ARP_SHW
  let len := arphHwlen buf
  let stop := fun are => hwMatches (s.entry are) nif (arphHwtype buf) len addr
  let candidate := fun are => (s.entry are).flags.hwcom && decide ((s.entry are).hwtype = arphHwtype buf)
    && decide ((s.entry are).nif = nif)
  [⟨.packet, ARP_SHW, 4, .key⟩]
    ++ (compared stop candidate (s.rarptab (arpHash addr len))).flatMap
      fun are => [⟨.packet, ARP_SHW, len, .key⟩, ⟨.hwaddr are, 0, len, .key⟩]

def rarpInputAccesses : List Access :=
  headerAccesses buf
    ++ (if goodLength buf && (arpMyaddr env nif (arphPrtype buf)).isSome && decide (arphOp buf = AROP_RARPREQ)
          && mine env nif buf then rarpLookupAccesses s nif buf else [])
    ++ match rarpAnswer env s nif buf with
      | none => []
      | some are =>
          [⟨.packet, ARP_DPR buf, arphPrlen buf, .reply⟩, ⟨.praddr are, 0, arphPrlen buf, .reply⟩,
            ⟨.packet, ARP_DHW buf, arphHwlen buf, .hardware⟩, ⟨.packet, ARP_SHW, arphHwlen buf, .hardware⟩,
            ⟨.packet, ARP_SPR buf, arphPrlen buf, .reply⟩, ⟨.myaddr, 0, arphPrlen buf, .reply⟩,
            ⟨.hwlocal, 0, arphHwlen buf, .hardware⟩]

end

def Inside (buf : Buffer) (accesses : List Access) : Prop := ∀ a ∈ accesses, a.start + a.len ≤ roomOf buf a.place

-- The comparison with the local address and the answer take an address of the protocol's length.
def Exact (accesses : List Access) : Prop := ∀ a ∈ accesses, a.role = .forme ∨ a.role = .reply → a.len = IP_ALEN

structure ArpSafe (env : Env) (s : Cache) (nif : Nat) (buf : Buffer) : Prop where
  inside : Inside buf (arpInputAccesses env s nif buf)
  fits : ∀ len ∈ arpInputLen env s nif buf, len ≤ ADR_SIZE
  exact : Exact (arpInputAccesses env s nif buf)

structure RarpSafe (env : Env) (s : Cache) (nif : Nat) (buf : Buffer) : Prop where
  inside : Inside buf (rarpInputAccesses env s nif buf)
  exact : Exact (rarpInputAccesses env s nif buf)

-- The checks at the top of arp_input.
def accepted (env : Env) (nif : Nat) (buf : Buffer) : Bool :=
  goodLength buf && (arpMyaddr env nif (arphPrtype buf)).isSome && mine env nif buf

def Ethernet (n : Netif) : Prop := n.hwtype = HWTYPE_ETH ∧ n.hwlocal.len = ETH_ALEN

theorem inside_append (buf : Buffer) (first second : List Access) (left : Inside buf first) (right : Inside buf second) :
    Inside buf (first ++ second) := by
  intro a member
  exact (List.mem_append.mp member).elim (left a) (right a)

theorem exact_append (first second : List Access) (left : Exact first) (right : Exact second) : Exact (first ++ second) := by
  intro a member
  exact (List.mem_append.mp member).elim (left a) (right a)

theorem inside_nil (buf : Buffer) : Inside buf [] := fun _ no => absurd no List.not_mem_nil

theorem exact_nil : Exact [] := fun _ no => absurd no List.not_mem_nil

theorem inside_cons (buf : Buffer) (a : Access) (more : List Access) (first : a.start + a.len ≤ roomOf buf a.place)
    (rest : Inside buf more) : Inside buf (a :: more) := by
  intro other member
  rcases List.mem_cons.mp member with rfl | later
  · exact first
  · exact rest other later

theorem exact_cons (a : Access) (more : List Access) (first : a.role = .forme ∨ a.role = .reply → a.len = IP_ALEN)
    (rest : Exact more) : Exact (a :: more) := by
  intro other member
  rcases List.mem_cons.mp member with rfl | later
  · exact first
  · exact rest other later

theorem flat_inside (buf : Buffer) (entries : List Nat) (f : Nat → List Access) (each : ∀ are, Inside buf (f are)) :
    Inside buf (entries.flatMap f) := by
  intro a member
  obtain ⟨are, _, there⟩ := List.mem_flatMap.mp member
  exact each are a there

theorem flat_exact (entries : List Nat) (f : Nat → List Access) (each : ∀ are, Exact (f are)) : Exact (entries.flatMap f) := by
  intro a member
  obtain ⟨are, _, there⟩ := List.mem_flatMap.mp member
  exact each are a there

theorem key_not (role : Role) (plain : role = .header ∨ role = .key ∨ role = .hardware) (len : Nat) :
    role = .forme ∨ role = .reply → len = IP_ALEN := by
  rintro (rfl | rfl) <;> simp at plain

theorem header_inside (buf : Buffer) : Inside buf (headerAccesses buf) := by
  unfold headerAccesses
  split
  · rename_i long
    exact inside_cons buf _ _ ((Nat.zero_add _).trans_le long) (inside_nil buf)
  · exact inside_nil buf

theorem header_exact (buf : Buffer) : Exact (headerAccesses buf) := by
  unfold headerAccesses
  split
  · exact exact_cons _ _ (key_not _ (.inl rfl) _) exact_nil
  · exact exact_nil

section

variable (env : Env) (s : Cache) (nif : Nat) (buf : Buffer)

theorem lookup_inside (nocreat : Bool) (found : Option Nat) (p : Nat) (long : p + 4 ≤ buf.length)
    (four : arphPrlen buf = IP_ALEN) : Inside buf (lookupAccesses env s buf nocreat found p) := by
  have width : (if env.gnuc then arphPrlen buf else 4) = 4 := by
    rw [four]
    split <;> rfl
  unfold lookupAccesses
  dsimp only
  rw [width]
  refine inside_append buf _ _ (inside_append buf _ _ (inside_cons buf _ _ long (inside_nil buf)) ?_) ?_
  · exact flat_inside buf _ _ fun are =>
      inside_cons buf _ _ long (inside_cons buf _ _ (by decide : 0 + 4 ≤ ADR_SIZE) (inside_nil buf))
  · split
    · split
      · exact inside_nil buf
      · rw [four]
        exact inside_cons buf _ _ long (inside_cons buf _ _ (by decide : 0 + IP_ALEN ≤ ADR_SIZE) (inside_nil buf))
    · exact inside_nil buf

theorem lookup_exact (nocreat : Bool) (found : Option Nat) (p : Nat) : Exact (lookupAccesses env s buf nocreat found p) := by
  have key (a : Access) (which : a.role = .key) : a.role = .forme ∨ a.role = .reply → a.len = IP_ALEN :=
    key_not a.role (.inr (.inl which)) a.len
  unfold lookupAccesses
  refine exact_append _ _ (exact_append _ _ (exact_cons _ _ (key _ rfl) exact_nil) ?_) ?_
  · exact flat_exact _ _ fun are => exact_cons _ _ (key _ rfl) (exact_cons _ _ (key _ rfl) exact_nil)
  · split
    · split
      · exact exact_nil
      · exact exact_cons _ _ (key _ rfl) (exact_cons _ _ (key _ rfl) exact_nil)
    · exact exact_nil

-- What the length of a packet and its hardware addresses say of the places in it.
structure Shaped : Prop where
  length : buf.length = ARP_HLEN + 2 * (arphHwlen buf + IP_ALEN)
  hardware : arphHwlen buf ≤ ADR_SIZE
  four : arphPrlen buf = IP_ALEN

theorem shaped_of (good : goodLength buf = true) (mineToo : mine env nif buf = true) (four : arphPrlen buf = IP_ALEN) :
    Shaped buf := by
  have parts : decide (buf.length = ARP_LEN buf) = true := (Bool.and_eq_true _ _ ▸ good).2
  have length := of_decide_eq_true parts
  have middle : decide (arphHwlen buf = (env.nif nif).hwlocal.len) = true :=
    (Bool.and_eq_true _ _ ▸ (Bool.and_eq_true _ _ ▸ mineToo).1).2
  have same := of_decide_eq_true middle
  refine ⟨?_, same ▸ (env.nif nif).fits, four⟩
  rw [length, ARP_LEN, four]

theorem reply_inside (spr shw : Place) (shaped : Shaped buf) (sprRoom : IP_ALEN ≤ roomOf buf spr)
    (shwRoom : ADR_SIZE ≤ roomOf buf shw) : Inside buf (replyAccesses buf spr shw) := by
  have length := shaped.length
  have hardware := shaped.hardware
  have four := shaped.four
  have alen : IP_ALEN = 4 := rfl
  unfold replyAccesses
  refine inside_cons buf _ _ ?_ (inside_cons buf _ _ ?_ (inside_cons buf _ _ ?_ (inside_cons buf _ _ ?_
    (inside_cons buf _ _ ?_ (inside_nil buf)))))
  · show ARP_DPR buf + arphPrlen buf ≤ buf.length
    unfold ARP_DPR
    omega
  · show ARP_SPR buf + arphPrlen buf ≤ buf.length
    unfold ARP_SPR
    omega
  · show 0 + arphPrlen buf ≤ roomOf buf spr
    omega
  · show ARP_SHW + arphHwlen buf ≤ buf.length
    unfold ARP_SHW
    omega
  · show 0 + arphHwlen buf ≤ roomOf buf shw
    omega

theorem reply_exact (spr shw : Place) (four : arphPrlen buf = IP_ALEN) : Exact (replyAccesses buf spr shw) := by
  unfold replyAccesses
  rw [four]
  exact exact_cons _ _ (fun _ => rfl) (exact_cons _ _ (fun _ => rfl) (exact_cons _ _ (fun _ => rfl)
    (exact_cons _ _ (key_not _ (.inr (.inr rfl)) _) (exact_cons _ _ (key_not _ (.inr (.inr rfl)) _) exact_nil))))

theorem update_inside (are : Nat) (shaped : Shaped buf) : Inside buf (updateAccesses buf are) := by
  have length := shaped.length
  have hardware := shaped.hardware
  unfold updateAccesses
  refine inside_cons buf _ _ (by decide : 0 + 4 ≤ ADR_SIZE) (inside_cons buf _ _ ?_ (inside_cons buf _ _ ?_ (inside_nil buf)))
  · show ARP_SHW + arphHwlen buf ≤ buf.length
    unfold ARP_SHW
    omega
  · show 0 + arphHwlen buf ≤ ADR_SIZE
    omega

theorem update_exact (are : Nat) : Exact (updateAccesses buf are) :=
  exact_cons _ _ (key_not _ (.inr (.inl rfl)) _) (exact_cons _ _ (key_not _ (.inr (.inr rfl)) _)
    (exact_cons _ _ (key_not _ (.inr (.inr rfl)) _) exact_nil))

theorem answer_inside (myaddr : Buffer) (shaped : Shaped buf) : Inside buf (answerAccesses env s buf myaddr) := by
  have length := shaped.length
  have four := shaped.four
  have alen : IP_ALEN = 4 := rfl
  unfold answerAccesses
  split
  · refine inside_append buf _ _ (inside_cons buf _ _ ?_ (inside_cons buf _ _ ?_ (inside_nil buf))) ?_
    · show ARP_DHW buf + arphHwlen buf ≤ buf.length
      unfold ARP_DHW
      omega
    · show ARP_SHW + arphHwlen buf ≤ buf.length
      unfold ARP_SHW
      omega
    · split
      · exact reply_inside buf .myaddr .hwlocal shaped (Nat.le_refl _) (Nat.le_refl _)
      · refine inside_append buf _ _ (lookup_inside env s buf _ _ _ ?_ four) ?_
        · unfold ARP_DPR
          omega
        · split
          · split
            · exact reply_inside buf (.praddr _) (.hwaddr _) shaped (by decide : IP_ALEN ≤ ADR_SIZE) (Nat.le_refl _)
            · exact inside_nil buf
          · exact inside_nil buf
  · exact inside_nil buf

theorem answer_exact (myaddr : Buffer) (four : arphPrlen buf = IP_ALEN) : Exact (answerAccesses env s buf myaddr) := by
  have hardware (a : Access) (which : a.role = .hardware) : a.role = .forme ∨ a.role = .reply → a.len = IP_ALEN :=
    key_not a.role (.inr (.inr which)) a.len
  unfold answerAccesses
  split
  · refine exact_append _ _ (exact_cons _ _ (hardware _ rfl) (exact_cons _ _ (hardware _ rfl) exact_nil)) ?_
    split
    · exact reply_exact buf _ _ four
    · refine exact_append _ _ (lookup_exact env s buf _ _ _) ?_
      split
      · split
        · exact reply_exact buf _ _ four
        · exact exact_nil
      · exact exact_nil
  · exact exact_nil

theorem input_inside (myaddr : Buffer) (shaped : Shaped buf) (good : (goodLength buf && mine env nif buf) = true)
    (mySome : arpMyaddr env nif (arphPrtype buf) = some myaddr) : Inside buf (arpInputAccesses env s nif buf) := by
  have length := shaped.length
  have four := shaped.four
  have alen : IP_ALEN = 4 := rfl
  unfold arpInputAccesses
  rw [mySome]
  dsimp only
  rw [if_pos good]
  refine inside_append buf _ _ (header_inside buf) (inside_append buf _ _ (inside_append buf _ _ ?_ ?_) ?_)
  · refine inside_cons buf _ _ ?_ (inside_cons buf _ _ ?_ (inside_nil buf))
    · show 0 + arphPrlen buf ≤ IP_ALEN
      omega
    · show ARP_DPR buf + arphPrlen buf ≤ buf.length
      unfold ARP_DPR
      omega
  · refine lookup_inside env s buf _ _ _ ?_ four
    unfold ARP_SPR
    omega
  · split
    · exact inside_nil buf
    · exact answer_inside env _ buf myaddr shaped
    · exact inside_append buf _ _ (update_inside buf _ shaped) (answer_inside env _ buf myaddr shaped)

theorem input_exact (four : arphPrlen buf = IP_ALEN) : Exact (arpInputAccesses env s nif buf) := by
  unfold arpInputAccesses
  refine exact_append _ _ (header_exact buf) ?_
  split
  · exact exact_nil
  · split
    · refine exact_append _ _ (exact_append _ _ (exact_cons _ _ (fun _ => four) (exact_cons _ _ (fun _ => four) exact_nil))
        (lookup_exact env s buf _ _ _)) ?_
      split
      · exact exact_nil
      · exact answer_exact env _ buf _ four
      · exact exact_append _ _ (update_exact buf _) (answer_exact env _ buf _ four)
    · exact exact_nil

-- An entry that is found has an address that fits, and so has a new one when the packet's does.
theorem input_len (reached : Reached s) (fits : arphPrlen buf ≤ ADR_SIZE) :
    ∀ len ∈ arpInputLen env s nif buf, len ≤ ADR_SIZE := by
  intro len member
  unfold arpInputLen at member
  split at member
  · cases member
  · rename_i myaddr _
    split at member
    · split at member
      · rename_i overrun
        exact absurd (lookup_none env s _ _ _ _ _ _ overrun).2 (Nat.not_lt.mpr fits)
      · rename_i t found looked
        obtain ⟨are, rfl, rfl⟩ := Option.map_eq_some_iff.mp member
        obtain ⟨sound, paired⟩ := reached_sound s reached
        have result := lookup_looked env s t _ _ _ _ _ _ _ sound paired looked
        obtain ⟨i, listed⟩ := result.listed are rfl
        exact sized_lookup env s t _ _ _ _ _ _ _ (reached_sized s reached) looked are
          (result.sound.books.prLive i are listed)
    · cases member

theorem rarp_lookup_inside (long : ARP_SHW + 4 ≤ buf.length) (room : ARP_SHW + arphHwlen buf ≤ buf.length)
    (hardware : arphHwlen buf ≤ ADR_SIZE) : Inside buf (rarpLookupAccesses s nif buf) := by
  unfold rarpLookupAccesses
  refine inside_append buf _ _ (inside_cons buf _ _ long (inside_nil buf)) (flat_inside buf _ _ fun are => ?_)
  refine inside_cons buf _ _ room (inside_cons buf _ _ ?_ (inside_nil buf))
  show 0 + arphHwlen buf ≤ ADR_SIZE
  omega

theorem rarp_lookup_exact : Exact (rarpLookupAccesses s nif buf) := by
  unfold rarpLookupAccesses
  refine exact_append _ _ (exact_cons _ _ (key_not _ (.inr (.inl rfl)) _) exact_nil) (flat_exact _ _ fun are => ?_)
  exact exact_cons _ _ (key_not _ (.inr (.inl rfl)) _) (exact_cons _ _ (key_not _ (.inr (.inl rfl)) _) exact_nil)

end

-- arp_input: nothing goes wrong exactly when the packet is discarded by the checks, or has addresses of four bytes.
theorem arp_input_safe (env : Env) (s : Cache) (nif : Nat) (buf : Buffer) (reached : Reached s) :
    ArpSafe env s nif buf ↔ (accepted env nif buf = true → arphPrlen buf = IP_ALEN) := by
  cases mySome : arpMyaddr env nif (arphPrtype buf) with
  | none =>
      have trace : arpInputAccesses env s nif buf = headerAccesses buf := by
        unfold arpInputAccesses
        rw [mySome, List.append_nil]
      have discarded : accepted env nif buf = false := by
        unfold accepted
        rw [mySome]
        simp
      refine ⟨fun _ taken => absurd (discarded.symm.trans taken) Bool.false_ne_true, fun _ => ⟨?_, ?_, ?_⟩⟩
      · rw [trace]
        exact header_inside buf
      · unfold arpInputLen
        rw [mySome]
        exact fun _ no => by cases no
      · rw [trace]
        exact header_exact buf
  | some myaddr =>
      have taken : accepted env nif buf = (goodLength buf && mine env nif buf) := by
        unfold accepted
        rw [mySome]
        simp
      rw [taken]
      by_cases good : (goodLength buf && mine env nif buf) = true
      · have both := (Bool.and_eq_true _ _).mp good
        constructor
        · intro safe _
          have member : (⟨.myaddr, 0, arphPrlen buf, .forme⟩ : Access) ∈ arpInputAccesses env s nif buf := by
            unfold arpInputAccesses
            rw [mySome]
            dsimp only
            rw [if_pos good]
            exact List.mem_append_right _ (List.mem_append_left _ (List.mem_append_left _ List.mem_cons_self))
          exact safe.exact _ member (.inl rfl)
        · intro short
          have four := short good
          have shaped := shaped_of env nif buf both.1 both.2 four
          refine ⟨input_inside env s nif buf myaddr shaped good mySome, ?_, input_exact env s nif buf four⟩
          exact input_len env s nif buf reached (by rw [four]; decide)
      · have trace : arpInputAccesses env s nif buf = headerAccesses buf := by
          unfold arpInputAccesses
          rw [mySome]
          dsimp only
          rw [if_neg good, List.append_nil]
        refine ⟨fun _ yes => absurd yes good, fun _ => ⟨?_, ?_, ?_⟩⟩
        · rw [trace]
          exact header_inside buf
        · unfold arpInputLen
          rw [mySome]
          dsimp only
          rw [if_neg good]
          exact fun _ no => by cases no
        · rw [trace]
          exact header_exact buf

-- rarp_input: the addresses of the protocol are only touched when there is an answer.
theorem rarp_input_safe (env : Env) (s : Cache) (nif : Nat) (buf : Buffer) (ethernet : Ethernet (env.nif nif)) :
    RarpSafe env s nif buf ↔ (rarpAnswer env s nif buf ≠ none → arphPrlen buf = IP_ALEN) := by
  have plain : Inside buf (headerAccesses buf ++ if goodLength buf && (arpMyaddr env nif (arphPrtype buf)).isSome
      && decide (arphOp buf = AROP_RARPREQ) && mine env nif buf then rarpLookupAccesses s nif buf else []) := by
    refine inside_append buf _ _ (header_inside buf) ?_
    split
    · rename_i taken
      simp only [Bool.and_eq_true, goodLength, mine, decide_eq_true_eq] at taken
      obtain ⟨⟨⟨⟨_, length⟩, _⟩, _⟩, ⟨_, same⟩, _⟩ := taken
      have six : arphHwlen buf = 6 := same.trans ethernet.2
      unfold ARP_LEN at length
      refine rarp_lookup_inside s nif buf ?_ ?_ ?_
      · unfold ARP_SHW
        omega
      · unfold ARP_SHW
        omega
      · rw [six]
        decide
    · exact inside_nil buf
  have calm : Exact (headerAccesses buf ++ if goodLength buf && (arpMyaddr env nif (arphPrtype buf)).isSome
      && decide (arphOp buf = AROP_RARPREQ) && mine env nif buf then rarpLookupAccesses s nif buf else []) := by
    refine exact_append _ _ (header_exact buf) ?_
    split
    · exact rarp_lookup_exact s nif buf
    · exact exact_nil
  cases answer : rarpAnswer env s nif buf with
  | none =>
      refine ⟨fun _ no => absurd rfl no, fun _ => ⟨?_, ?_⟩⟩
      · unfold rarpInputAccesses
        rw [answer, List.append_nil]
        exact plain
      · unfold rarpInputAccesses
        rw [answer, List.append_nil]
        exact calm
  | some are =>
      have taken : goodLength buf = true ∧ mine env nif buf = true := by
        unfold rarpAnswer at answer
        split at answer
        · rename_i checks
          simp only [Bool.and_eq_true] at checks
          exact ⟨checks.1.1.1, checks.2⟩
        · cases answer
      constructor
      · intro safe _
        have member : (⟨.myaddr, 0, arphPrlen buf, .reply⟩ : Access) ∈ rarpInputAccesses env s nif buf := by
          unfold rarpInputAccesses
          rw [answer]
          exact List.mem_append_right _ (by simp)
        exact safe.exact _ member (.inr rfl)
      · intro short
        have four := short (by simp)
        have shaped := shaped_of env nif buf taken.1 taken.2 four
        have length := shaped.length
        have hardware := shaped.hardware
        have alen : IP_ALEN = 4 := rfl
        have adr : ADR_SIZE = 10 := rfl
        refine ⟨?_, ?_⟩
        · unfold rarpInputAccesses
          rw [answer]
          refine inside_append buf _ _ plain ?_
          refine inside_cons buf _ _ ?_ (inside_cons buf _ _ ?_ (inside_cons buf _ _ ?_ (inside_cons buf _ _ ?_
            (inside_cons buf _ _ ?_ (inside_cons buf _ _ ?_ (inside_cons buf _ _ ?_ (inside_nil buf)))))))
          all_goals
            unfold roomOf
            dsimp only [ARP_DPR, ARP_DHW, ARP_SHW, ARP_SPR]
            omega
        · unfold rarpInputAccesses
          rw [answer, four]
          refine exact_append _ _ calm ?_
          exact exact_cons _ _ (fun _ => rfl) (exact_cons _ _ (fun _ => rfl) (exact_cons _ _ (key_not _ (.inr (.inr rfl)) _)
            (exact_cons _ _ (key_not _ (.inr (.inr rfl)) _) (exact_cons _ _ (fun _ => rfl) (exact_cons _ _ (fun _ => rfl)
              (exact_cons _ _ (key_not _ (.inr (.inr rfl)) _) exact_nil))))))

-- Where the address of a new entry overruns its field, the checks have let the packet through.
theorem overrun_unsafe (env : Env) (s : Cache) (nif : Nat) (buf : Buffer) (overrun : arpInput env nif buf s = none) :
    ∃ len ∈ arpInputLen env s nif buf, ADR_SIZE < len := by
  unfold arpInput at overrun
  split at overrun
  · rename_i good
    split at overrun
    · cases overrun
    · rename_i myaddr mySome
      split at overrun
      · rename_i taken
        have checks : (goodLength buf && mine env nif buf) = true := (Bool.and_eq_true _ _).mpr ⟨good, taken⟩
        split at overrun
        · rename_i full
          refine ⟨arphPrlen buf, ?_, (lookup_none env s _ _ _ _ _ _ full).2⟩
          have same : senderLookup env s nif buf myaddr = none := full
          unfold arpInputLen
          rw [mySome]
          dsimp only
          rw [if_pos checks, same]
          rfl
        · exact absurd overrun (answer_total env _ nif buf myaddr)
        · exact absurd overrun (answer_total env _ nif buf myaddr)
      · cases overrun
  · cases overrun

theorem arp_lengths (env : Env) (s : Cache) (nif : Nat) (buf : Buffer) (reached : Reached s) (ethernet : Ethernet (env.nif nif)) :
    (ArpSafe env s nif buf ↔ (accepted env nif buf = true → arphPrlen buf = IP_ALEN)) ∧
      (RarpSafe env s nif buf ↔ (rarpAnswer env s nif buf ≠ none → arphPrlen buf = IP_ALEN)) :=
  ⟨arp_input_safe env s nif buf reached, rarp_input_safe env s nif buf ethernet⟩

theorem arp_lengths_reply : ArpSafe (ethernet true) (empty fun _ => arpAlloc) 0 reply :=
  (arp_lengths (ethernet true) (empty fun _ => arpAlloc) 0 reply (.start _) ⟨rfl, rfl⟩).1.mpr fun _ => rfl

-- Addresses of twelve bytes: four of the host's, and eight that lie behind them in memory.
theorem arp_lengths_overrun : Reached (empty fun _ => arpAlloc) ∧ Ethernet ((ethernet true).nif 0) ∧
    arpInputLen (ethernet true) (empty fun _ => arpAlloc) 0 longReply = some 12 ∧
      ¬ ArpSafe (ethernet true) (empty fun _ => arpAlloc) 0 longReply := by
  have long : arpInputLen (ethernet true) (empty fun _ => arpAlloc) 0 longReply = some 12 := by decide +kernel
  refine ⟨.start _, ⟨rfl, rfl⟩, long, fun safe => ?_⟩
  exact absurd (safe.fits 12 (by rw [long]; rfl)) (by decide)

end MagxNet.Arp
