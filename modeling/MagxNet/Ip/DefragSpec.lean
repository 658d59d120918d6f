import MagxNet.Ip.Frag

set_option autoImplicit false

namespace MagxNet.Ip

open Bytes

-- What the search says about the slots it has been through.
def Slot.Sound (frags : FragTable) (iph : Buffer) (passed : List (Fin IPFRAG_HEADS)) : Slot → Prop
  | .found i => (frags i).buf ≠ [] ∧ Matches iph (frags i)
  | .free i => (frags i).buf = [] ∧ ∀ j ∈ passed, (frags j).buf ≠ [] → ¬ Matches iph (frags j)
  | .full => ∀ j ∈ passed, (frags j).buf ≠ [] ∧ ¬ Matches iph (frags j)

theorem slot_search_sound (frags : FragTable) (iph : Buffer) :
    ∀ (slots passed : List (Fin IPFRAG_HEADS)) (seen : Slot), (∀ i, seen ≠ .found i) →
      seen.Sound frags iph passed → (slotSearch frags iph slots seen).Sound frags iph (passed ++ slots) := by
  intro slots
  induction slots with
  | nil => intro passed seen _ sound; simpa [slotSearch] using sound
  | cons i rest next =>
      intro passed seen open_ sound
      rw [slotSearch, List.append_cons]
      by_cases occupied : (frags i).buf ≠ []
      · rw [if_pos occupied]
        by_cases same : Matches iph (frags i)
        · rw [if_pos same]
          exact ⟨occupied, same⟩
        · rw [if_neg same]
          refine next (passed ++ [i]) seen open_ ?_
          cases seen with
          | found j => exact absurd rfl (open_ j)
          | free j =>
              refine ⟨sound.1, fun k member => ?_⟩
              rcases List.mem_append.mp member with before | here
              · exact sound.2 k before
              · obtain rfl := List.mem_singleton.mp here
                exact fun _ => same
          | full =>
              intro k member
              rcases List.mem_append.mp member with before | here
              · exact sound k before
              · obtain rfl := List.mem_singleton.mp here
                exact ⟨occupied, same⟩
      · rw [if_neg occupied]
        refine next (passed ++ [i]) (.free i) (fun _ other => by cases other) ?_
        have empty : (frags i).buf = [] := by simpa using occupied
        refine ⟨empty, fun k member => ?_⟩
        rcases List.mem_append.mp member with before | here
        · cases seen with
          | found j => exact absurd rfl (open_ j)
          | free j => exact sound.2 k before
          | full => exact fun _ => (sound k before).2
        · obtain rfl := List.mem_singleton.mp here
          exact fun busy => absurd empty busy

theorem slot_of_sound (frags : FragTable) (iph : Buffer) :
    (slotOf frags iph).Sound frags iph (List.finRange IPFRAG_HEADS) := by
  have sound := slot_search_sound frags iph (List.finRange IPFRAG_HEADS) [] .full (fun _ other => by cases other)
    (fun j member => absurd member (by simp))
  simpa [slotOf] using sound

theorem slot_of_found (frags : FragTable) (iph : Buffer) (i : Fin IPFRAG_HEADS) (found : slotOf frags iph = .found i) :
    (frags i).buf ≠ [] ∧ Matches iph (frags i) := by
  have sound := slot_of_sound frags iph
  rw [found] at sound
  exact sound

theorem slot_of_free (frags : FragTable) (iph : Buffer) (i : Fin IPFRAG_HEADS) (free : slotOf frags iph = .free i) :
    (frags i).buf = [] ∧ ∀ j, (frags j).buf ≠ [] → ¬ Matches iph (frags j) := by
  have sound := slot_of_sound frags iph
  rw [free] at sound
  exact ⟨sound.1, fun j => sound.2 j (List.mem_finRange j)⟩

theorem slot_of_full (frags : FragTable) (iph : Buffer) (full : slotOf frags iph = .full) (j : Fin IPFRAG_HEADS) :
    (frags j).buf ≠ [] ∧ ¬ Matches iph (frags j) := by
  have sound := slot_of_sound frags iph
  rw [full] at sound
  exact sound j (List.mem_finRange j)

theorem frag_link_mem (buf : IpBuf) (chain chain' : List IpBuf) (last : Bool)
    (linked : fragLink buf chain = some (chain', last)) : ∀ b, b ∈ chain' ↔ b = buf ∨ b ∈ chain := by
  induction chain generalizing chain' last with
  | nil =>
      cases linked
      simp
  | cons curr rest next =>
      rw [fragLink] at linked
      by_cases before : fragOffset buf.bytes < fragOffset curr.bytes
      · rw [if_pos before] at linked
        cases linked
        simp
      · rw [if_neg before] at linked
        by_cases same : fragOffset curr.bytes = fragOffset buf.bytes
        · rw [if_pos same] at linked
          cases linked
        · rw [if_neg same] at linked
          cases further : fragLink buf rest with
          | none => simp [further] at linked
          | some result =>
              obtain ⟨tail, atEnd⟩ := result
              simp only [further, Option.map_some, Option.some.injEq, Prod.mk.injEq] at linked
              obtain ⟨rfl, _⟩ := linked
              intro b
              have members := next tail atEnd further b
              simp only [List.mem_cons, members]
              tauto

-- frag_insert keeps the key and the timer, and only ever adds the new buffer to the chain.
structure Inserted (frag frag' : Fragment) (buf : IpBuf) : Prop where
  id : frag'.id = frag.id
  saddr : frag'.saddr = frag.saddr
  tmout : frag'.tmout = frag.tmout
  old : ∀ b ∈ frag.buf, b ∈ frag'.buf
  chain : ∀ b ∈ frag'.buf, b = buf ∨ b ∈ frag.buf
  busy : frag'.buf ≠ []

theorem frag_insert_spec (net : IpNet) (frag : Fragment) (buf : IpBuf) :
    Inserted frag (fragInsert net frag buf).1 buf := by
  cases linked : fragLink buf frag.buf with
  | none =>
      have busy : frag.buf ≠ [] := by
        intro empty
        rw [empty] at linked
        cases linked
      simp only [fragInsert, linked]
      exact ⟨rfl, rfl, rfl, fun _ member => member, fun _ member => Or.inr member, busy⟩
  | some result =>
      obtain ⟨chain, last⟩ := result
      have members := frag_link_mem buf frag.buf chain last linked
      simp only [fragInsert, linked]
      refine ⟨rfl, rfl, rfl, fun b member => (members b).mpr (Or.inr member), fun b => (members b).mp, ?_⟩
      exact List.ne_nil_of_mem ((members buf).mpr (Or.inl rfl))

-- The payload a fragment contributes, as memcpy reads it.
def body (iph : Buffer) : Buffer := copyBytes iph (ipHdrlen iph) (datalen iph).toNat

theorem frag_copy_spec (chain : List IpBuf) (bytes : Buffer) (offset : Int) (net net' : IpNet) (rest : List IpBuf)
    (copied : Option (Buffer × Int)) (run : fragCopy bytes offset net chain = .ret (copied, rest, net')) :
    ∀ out total, copied = some (out, total) →
      rest = [] ∧ out = bytes ++ (chain.map fun b => body b.bytes).flatten ∧
        total = offset + (chain.map fun b => body b.bytes).flatten.length := by
  induction chain generalizing bytes offset net with
  | nil =>
      intro out total same
      cases run
      cases same
      simp
  | cons oldbuf others next =>
      intro out total same
      rw [fragCopy] at run
      by_cases gap : offset ≠ fragOffset oldbuf.bytes * 8
      · rw [if_pos gap] at run
        cases run
        cases same
      · rw [if_neg gap] at run
        by_cases short : datalen oldbuf.bytes < 0
        · rw [if_pos short] at run
          cases run
        · rw [if_neg short] at run
          obtain ⟨done, built, size⟩ := next _ _ _ run out total same
          refine ⟨done, ?_, ?_⟩
          · rw [built, List.map_cons, List.flatten_cons, List.append_assoc]
            rfl
          · rw [size, List.map_cons, List.flatten_cons, List.length_append, body, copy_bytes_length, Nat.cast_add,
              add_assoc]

theorem frag_copy_ret (chain : List IpBuf) (bytes : Buffer) (offset : Int) (net : IpNet)
    (whole : ∀ b ∈ chain, 0 ≤ datalen b.bytes) : ∃ result, fragCopy bytes offset net chain = .ret result := by
  induction chain generalizing bytes offset net with
  | nil => exact ⟨_, rfl⟩
  | cons oldbuf others next =>
      rw [fragCopy]
      by_cases gap : offset ≠ fragOffset oldbuf.bytes * 8
      · exact ⟨_, if_pos gap⟩
      · have long : ¬ datalen oldbuf.bytes < 0 := not_lt.mpr (whole oldbuf (List.mem_cons_self ..))
        rw [if_neg gap, if_neg long]
        exact next _ _ _ fun b member => whole b (List.mem_cons_of_mem _ member)

-- A datagram put together from fragments: the header of the first one with the length field of the
-- payload, then all the payloads.
def Assembled (first : Buffer) (rest : List Buffer) (out : Buffer) : Prop :=
  out = setFragoff (setLength (copyBytes first 0 (ipHdrlen first) ++ ((first :: rest).map body).flatten)
    ((first :: rest).map body).flatten.length) 0

theorem assembled_length (first out : Buffer) (rest : List Buffer) (built : Assembled first rest out) :
    out.length = ipHdrlen first + ((first :: rest).map body).flatten.length := by
  rw [built, setFragoff, setLength, put16_length, put16_length, List.length_append, copy_bytes_length]

theorem assembled_field (first out : Buffer) (rest : List Buffer) (i : Nat) (built : Assembled first rest out)
    (header : i < ipHdrlen first) (apart : i < 2 ∨ i = 4 ∨ i = 5 ∨ 7 < i) : get8 out i = get8 first i := by
  rw [built, setFragoff, setLength, get8_put16_elsewhere _ _ _ _ (by omega) (by omega),
    get8_put16_elsewhere _ _ _ _ (by omega) (by omega), get8_append_left _ _ _ (by simpa using header),
    get8_copy_bytes _ _ _ _ header, Nat.zero_add]

theorem assembled_payload (first out : Buffer) (rest : List Buffer) (built : Assembled first rest out)
    (header : 8 ≤ ipHdrlen first) : payload out = ((first :: rest).map body).flatten := by
  have hdrlen : ipHdrlen out = ipHdrlen first := by
    have byte := assembled_field first out rest 0 built (by omega) (by omega)
    rw [ipHdrlen, ipHdrlen, iphHdrlen, iphHdrlen, byte]
  rw [payload, hdrlen, built, setFragoff, setLength, put16_drop _ _ _ _ (by omega), put16_drop _ _ _ _ (by omega),
    List.drop_append_of_le_length (by simp), List.drop_of_length_le (by simp), List.nil_append]

theorem assembled_length_field (first out : Buffer) (rest : List Buffer) (built : Assembled first rest out)
    (header : 4 ≤ ipHdrlen first) :
    iphLength out = BitVec.ofNat 16 ((first :: rest).map body).flatten.length := by
  rw [built, iphLength, setFragoff, get16_put16_elsewhere _ _ _ _ (by omega), setLength,
    get16_put16_here _ _ _ (by simp; omega)]

-- frag_pullup leaves the slot as it is or empties it; a datagram comes out only of an emptied slot.
structure PulledUp (frag frag' : Fragment) (out : Option IpBuf) : Prop where
  id : frag'.id = frag.id
  saddr : frag'.saddr = frag.saddr
  slot : (frag' = frag ∧ out = none) ∨ (frag'.buf = [] ∧ frag'.tmout = false)
  assembled : ∀ nbuf, out = some nbuf → frag'.buf = [] ∧
    ∃ first rest, frag.buf = first :: rest ∧ Assembled first.bytes (rest.map IpBuf.bytes) nbuf.bytes

theorem frag_pullup_spec (oracle : Oracle) (net net' : IpNet) (frag frag' : Fragment) (out : Option IpBuf)
    (run : fragPullup oracle net frag = .ret (out, frag', net')) : PulledUp frag frag' out := by
  unfold fragPullup at run
  by_cases incomplete : frag.totlen = 0 ∨ frag.totlen ≠ frag.curlen
  · rw [if_pos incomplete] at run
    cases run
    exact ⟨rfl, rfl, Or.inl ⟨rfl, rfl⟩, fun _ other => by cases other⟩
  · rw [if_neg incomplete] at run
    cases chain : frag.buf with
    | nil => simp [chain] at run
    | cons first rest =>
        simp only [chain] at run
        generalize bufAlloc oracle net _ = result at run
        obtain ⟨granted, after⟩ := result
        cases granted with
        | none =>
            cases run
            exact ⟨rfl, rfl, Or.inr ⟨rfl, rfl⟩, fun _ other => by cases other⟩
        | some nbuf =>
            dsimp only at run
            obtain ⟨⟨copied, left, after'⟩, copy, built⟩ := (Outcome.bind_eq_ret _ _ _).mp run
            have spec := frag_copy_spec (first :: rest) _ _ _ _ _ _ copy
            cases copied with
            | none =>
                cases built
                exact ⟨rfl, rfl, Or.inr ⟨rfl, rfl⟩, fun _ other => by cases other⟩
            | some result =>
                obtain ⟨bytes, total⟩ := result
                cases built
                obtain ⟨_, bytesEq, totalEq⟩ := spec bytes total rfl
                refine ⟨rfl, rfl, Or.inr ⟨rfl, rfl⟩, fun nbuf' same => ?_⟩
                cases same
                refine ⟨rfl, first, rest, chain, ?_⟩
                have flat : ((first.bytes :: rest.map IpBuf.bytes).map body).flatten =
                    ((first :: rest).map fun b => body b.bytes).flatten := by
                  simp [Function.comp_def]
                rw [Assembled, flat, totalEq, bytesEq, zero_add, Int.toNat_natCast]

end MagxNet.Ip
