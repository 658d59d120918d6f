import MagxNet.Arp.Timeout
import MagxNet.Arp.Input

set_option autoImplicit false

namespace MagxNet.Arp

open Bytes (Byte Buffer get8 get16 get32 copyBytes)
open Buckets (insert unlink listed Filed)

theorem get8_memcpy (dst src : Buffer) (n i : Nat) (inside : i < n) : get8 (memcpy dst src n) i = get8 src i := by
  unfold memcpy
  rw [Bytes.get8_append_left _ _ _ (by simpa [copyBytes] using inside), Bytes.get8_copy_bytes src 0 n i inside, Nat.zero_add]

theorem join_value (w : Nat) (high low : BitVec w) : (high ++ low).toNat = high.toNat * 2 ^ w + low.toNat := by
  rw [BitVec.toNat_append, ← Nat.shiftLeft_add_eq_or_of_lt low.isLt, Nat.shiftLeft_eq]

theorem get32_value (buf : Buffer) : (get32 buf 0).toNat =
    ((get8 buf 0).toNat * 256 + (get8 buf 1).toNat) * 65536 + ((get8 buf 2).toNat * 256 + (get8 buf 3).toNat) := by
  unfold get32 get16
  rw [join_value 16, join_value 8, join_value 8]
  norm_num

theorem shifted (buf : Buffer) (len : Nat) : (get32 buf 0 >>> (32 - 8 * len)).toNat =
    (((get8 buf 0).toNat * 256 + (get8 buf 1).toNat) * 65536 + ((get8 buf 2).toNat * 256 + (get8 buf 3).toNat))
      / 2 ^ (32 - 8 * len) := by
  rw [BitVec.toNat_ushiftRight, Nat.shiftRight_eq_div_pow, get32_value]

-- Only as many bytes matter as the address has.
theorem short_congr (first second : Buffer) (len : Nat) (short : len < 4)
    (same : ∀ i, i < len → get8 first i = get8 second i) :
    (get32 first 0 >>> (32 - 8 * len)).toNat = (get32 second 0 >>> (32 - 8 * len)).toNat := by
  have bounds : ∀ buf : Buffer, (get8 buf 0).toNat < 256 ∧ (get8 buf 1).toNat < 256 ∧ (get8 buf 2).toNat < 256
      ∧ (get8 buf 3).toNat < 256 := fun buf => ⟨(get8 buf 0).isLt, (get8 buf 1).isLt, (get8 buf 2).isLt, (get8 buf 3).isLt⟩
  have left := bounds first
  have right := bounds second
  rw [shifted first len, shifted second len]
  match len, short with
  | 0, _ => omega
  | 1, _ =>
      rw [same 0 (by decide)]
      omega
  | 2, _ =>
      rw [same 0 (by decide), same 1 (by decide)]
      omega
  | 3, _ =>
      rw [same 0 (by decide), same 1 (by decide), same 2 (by decide)]
      omega

theorem hash_congr (first second : Buffer) (len : Nat) (same : ∀ i, i < len → get8 first i = get8 second i) :
    arpHash first len = arpHash second len := by
  unfold arpHash
  dsimp only
  by_cases short : len < 4
  · rw [if_pos short, if_pos short, short_congr first second len short same]
  · have whole : (get32 first 0).toNat = (get32 second 0).toNat := by
      rw [get32_value, get32_value, same 0 (by omega), same 1 (by omega), same 2 (by omega), same 3 (by omega)]
    rw [if_neg short, if_neg short, whole]

theorem new_hash (env : Env) (nif : Nat) (type : BitVec 16) (len : Nat) (addr : Buffer) :
    prHash (newEntry env nif type len addr) = arpHash addr len :=
  hash_congr _ _ len fun i inside => get8_memcpy arpAlloc.praddr.bytes addr len i inside

theorem fresh_nowhere (s : Cache) (loose : List Nat) (books : Books s loose) :
    s.live s.allocs = false ∧ (∀ i, s.allocs ∉ s.arptab i) ∧ (∀ i, s.allocs ∉ s.rarptab i) ∧ s.allocs ∉ s.events
      ∧ s.allocs ∉ s.held ∧ s.allocs ∉ loose := by
  have dead : ¬ s.live s.allocs = true := fun live => Nat.lt_irrefl _ (books.known s.allocs live)
  exact ⟨Bool.eq_false_iff.mpr dead, fun i member => dead (books.prLive i _ member), fun i member => dead (books.hwLive i _ member),
    fun member => dead ((books.eventsSet _).mp member).1, fun member => dead (books.heldLive _ member),
    fun member => dead (books.looseLive _ member)⟩

theorem create_others (env : Env) (s : Cache) (nif : Nat) (type : BitVec 16) (len : Nat) (addr : Buffer) (other : Nat)
    (different : other ≠ s.allocs) : (create env s nif type len addr).entry other = s.entry other
      ∧ (create env s nif type len addr).live other = s.live other :=
  ⟨entry_set_other _ s.allocs other _ different, Function.update_of_ne different _ _⟩

theorem create_here (env : Env) (s : Cache) (nif : Nat) (type : BitVec 16) (len : Nat) (addr : Buffer) :
    (create env s nif type len addr).entry s.allocs = newEntry env nif type len addr
      ∧ (create env s nif type len addr).live s.allocs = true :=
  ⟨entry_set_here _ s.allocs _, Function.update_self _ _ _⟩

theorem books_create (env : Env) (s : Cache) (nif : Nat) (type : BitVec 16) (len : Nat) (addr : Buffer) (books : Books s []) :
    Books (create env s nif type len addr) [s.allocs] := by
  obtain ⟨_, noPr, noHw, noEvent, noHeld, _⟩ := fresh_nowhere s [] books
  have hash := new_hash env nif type len addr
  have others := create_others env s nif type len addr
  obtain ⟨here, alive⟩ := create_here env s nif type len addr
  have arptab : (create env s nif type len addr).arptab = insert s.arptab (arpHash addr len) s.allocs := rfl
  have rarptab : (create env s nif type len addr).rarptab = s.rarptab := rfl
  have held : (create env s nif type len addr).held = s.held := rfl
  have events : (create env s nif type len addr).events = s.events := rfl
  have allocs : (create env s nif type len addr).allocs = s.allocs + 1 := rfl
  generalize create env s nif type len addr = t at *
  have member : ∀ i other, other ∈ t.arptab i ↔ (i = arpHash addr len ∧ other = s.allocs) ∨ other ∈ s.arptab i := by
    rw [arptab]
    exact fun i other => Buckets.mem_insert s.arptab _ i s.allocs other
  have countedOther : ∀ other, other ≠ s.allocs → refs t [s.allocs] other = refs s [] other := by
    intro other different
    rw [refs_cons_other t [] s.allocs other different]
    unfold refs
    rw [arptab, Buckets.listed_insert_other _ _ _ _ _ (hash_bound addr len) different, rarptab, held]
  have countedHere : refs t [s.allocs] s.allocs = 2 := by
    rw [refs_cons_self]
    unfold refs
    rw [arptab, Buckets.listed_insert _ _ _ _ (hash_bound addr len), Buckets.listed_absent _ _ _ noPr, rarptab,
      Buckets.listed_absent _ _ _ noHw, held, List.count_eq_zero.mpr noHeld]
    rfl
  have was : ∀ other, other ≠ s.allocs → t.live other = true → s.live other = true := fun other different there =>
    (others other different).2 ▸ there
  have old : ∀ i other, other ∈ s.arptab i ∨ other ∈ s.rarptab i → other ≠ s.allocs := by
    rintro i other (inside | inside) same
    · exact noPr i (same ▸ inside)
    · exact noHw i (same ▸ inside)
  constructor
  · rw [arptab]
    have rehashed : Filed ARP_HASHSIZE (fun are => prHash (t.entry are)) s.arptab :=
      Buckets.filed_rehash _ _ _ _ books.prFiled fun i other inside => by
        rw [(others other (old i other (Or.inl inside))).1]
    have place : prHash (t.entry s.allocs) = arpHash addr len := by rw [here, hash]
    rw [← place]
    exact Buckets.filed_insert _ _ _ s.allocs rehashed (by rw [place]; exact hash_bound addr len) noPr
  · rw [rarptab]
    refine Buckets.filed_rehash _ _ _ _ books.hwFiled fun i other inside => ?_
    rw [(others other (old i other (Or.inr inside))).1]
  · intro i other inside
    rcases (member i other).mp inside with ⟨_, same⟩ | before
    · exact same ▸ alive
    · rw [(others other (old i other (Or.inl before))).2]
      exact books.prLive i other before
  · rw [rarptab]
    intro i other before
    rw [(others other (old i other (Or.inr before))).2]
    exact books.hwLive i other before
  · rw [rarptab]
    intro i other before
    rw [(others other (old i other (Or.inr before))).1]
    exact books.hwCom i other before
  · intro other there
    by_cases same : other = s.allocs
    · rw [same, here]
      rfl
    · rw [(others other same).1]
      exact books.prCom other (was other same there)
  · intro other there
    rw [allocs]
    by_cases same : other = s.allocs
    · omega
    · exact Nat.lt_succ_of_lt (books.known other (was other same there))
  · rw [events]
    exact books.eventsOnce
  · intro other
    rw [events]
    by_cases same : other = s.allocs
    · rw [same, here]
      exact ⟨fun inside => absurd inside noEvent, fun both => by cases both.2⟩
    · rw [(others other same).1, (others other same).2]
      exact books.eventsSet other
  · rw [held]
    intro other inside
    rw [(others other fun same => noHeld (same ▸ inside)).2]
    exact books.heldLive other inside
  · intro other inside
    rw [List.mem_singleton.mp inside]
    exact alive
  · intro other there
    by_cases same : other = s.allocs
    · rw [same, here, countedHere]
      rfl
    · rw [(others other same).1, countedOther other same]
      exact books.links other (was other same there)
  · intro other there
    by_cases same : other = s.allocs
    · rw [same, countedHere]
      decide
    · rw [countedOther other same]
      exact books.used other (was other same there)
  · rw [held]
    exact books.room

theorem packets_create (env : Env) (s : Cache) (busy : Nat → Prop) (nif : Nat) (type : BitVec 16) (len : Nat) (addr : Buffer)
    (books : Books s []) (packets : Packets s busy) : Packets (create env s nif type len addr) busy := by
  obtain ⟨dead, _⟩ := fresh_nowhere s [] books
  have others := create_others env s nif type len addr
  obtain ⟨here, alive⟩ := create_here env s nif type len addr
  have dest : (create env s nif type len addr).dest = s.dest := rfl
  have done : (create env s nif type len addr).done = s.done := rfl
  have allocs : (create env s nif type len addr).allocs = s.allocs + 1 := rfl
  generalize create env s nif type len addr = t at *
  have empty : (t.entry s.allocs).outq = [] := by rw [here]; rfl
  have known : ∀ d ∈ s.done, d.are ≠ s.allocs := fun d inside same =>
    Nat.lt_irrefl _ (same ▸ packets.known d.are (List.mem_of_getElem? (packets.doneFor d inside)))
  constructor
  · rw [done, dest]
    exact packets.doneFor
  · rw [done]
    exact packets.doneOnce
  · intro other there
    by_cases same : other = s.allocs
    · rw [same, empty]
      exact fun p inside => absurd inside List.not_mem_nil
    · rw [(others other same).1, dest]
      exact packets.queuedFor other ((others other same).2 ▸ there)
  · intro other there
    by_cases same : other = s.allocs
    · rw [same, empty]
      exact List.nodup_nil
    · rw [(others other same).1]
      exact packets.queuedOnce other ((others other same).2 ▸ there)
  · intro other there
    by_cases same : other = s.allocs
    · rw [same, empty]
      exact fun p inside => absurd inside List.not_mem_nil
    · rw [(others other same).1, done]
      exact packets.apart other ((others other same).2 ▸ there)
  · intro p other goes
    rw [dest] at goes
    have before := packets.known other (List.mem_of_getElem? goes)
    rw [(others other (Nat.ne_of_lt before)).1, (others other (Nat.ne_of_lt before)).2, done]
    exact packets.placed p other goes
  · rw [dest, allocs]
    exact fun other inside => Nat.lt_succ_of_lt (packets.known other inside)
  · intro other idle there hwcom
    by_cases same : other = s.allocs
    · rw [same, empty]
    · rw [(others other same).1] at hwcom ⊢
      exact packets.quiet other idle ((others other same).2 ▸ there) hwcom
  · intro d inside which
    rw [(others d.are (known d (done ▸ inside))).2]
    exact packets.freed d (done ▸ inside) which
  · intro d inside which there
    have before := others d.are (known d (done ▸ inside))
    rw [before.1]
    exact packets.resolved d (done ▸ inside) which (before.2 ▸ there)

theorem inc_same (e : Entry) : (incLinks e).tmout = e.tmout ∧ (incLinks e).outq = e.outq ∧ (incLinks e).praddr = e.praddr
    ∧ (incLinks e).hwaddr = e.hwaddr ∧ (incLinks e).flags = e.flags ∧ (incLinks e).nif = e.nif :=
  set_links_same e _

theorem inc_sound (s : Cache) (loose : List Nat) (busy : Nat → Prop) (are : Nat) (sound : Sound s loose busy)
    (live : s.live are = true) (few : refs s loose are + 1 < 65536) :
    Sound (s.setEntry are (incLinks (s.entry are))) (are :: loose) busy
      ∧ Calm s (s.setEntry are (incLinks (s.entry are))) := by
  obtain ⟨_, outq, praddr, hwaddr, flags, nif⟩ := inc_same (s.entry are)
  exact ⟨⟨books_inc s loose are sound.books live few, packets_set s busy are _ sound.packets outq (by rw [flags])⟩,
    calm_set s are _ ⟨praddr, hwaddr, flags, nif⟩⟩

-- What a lookup leaves: the caller has a reference of what it got.
structure Looked (s s' : Cache) (found : Option Nat) : Prop where
  sound : Sound s' found.toList nobody
  paired : Paired s' nobody
  held : s'.held = s.held
  dest : s'.dest = s.dest
  stale : s'.stale = s.stale
  listed : ∀ are, found = some are → ∃ i, are ∈ s'.arptab i

theorem looked_none (s : Cache) (sound : Sound s [] nobody) (paired : Paired s nobody) : Looked s s none :=
  ⟨sound, paired, rfl, rfl, rfl, fun _ no => by cases no⟩

theorem create_looked (env : Env) (s : Cache) (nif : Nat) (type : BitVec 16) (len : Nat) (addr : Buffer)
    (sound : Sound s [] nobody) (paired : Paired s nobody) :
    Looked s (create env s nif type len addr) (some s.allocs) := by
  obtain ⟨_, noPr, noHw, _⟩ := fresh_nowhere s [] sound.books
  have others := create_others env s nif type len addr
  obtain ⟨here, _⟩ := create_here env s nif type len addr
  have member : ∀ i other, other ∈ (create env s nif type len addr).arptab i ↔
      (i = arpHash addr len ∧ other = s.allocs) ∨ other ∈ s.arptab i := fun i other =>
    Buckets.mem_insert s.arptab _ i s.allocs other
  refine ⟨⟨books_create env s nif type len addr sound.books, packets_create env s nobody nif type len addr sound.books
    sound.packets⟩, fun other idle there hwcom => ?_, rfl, rfl, rfl, fun are same => ?_⟩
  · by_cases same : other = s.allocs
    · rw [same, here] at hwcom
      cases hwcom
    · rw [(others other same).1] at hwcom
      simp only [member, same, and_false, false_or]
      exact paired other idle ((others other same).2 ▸ there) hwcom
  · rw [← Option.some.inj same]
    exact ⟨_, (member _ _).mpr (Or.inl ⟨rfl, rfl⟩)⟩

theorem looked_request (env : Env) (s t : Cache) (are : Nat) (looked : Looked s t (some are))
    (fresh : (t.entry are).retries = 0) : Looked s (arpSendreq env t are) (some are) := by
  have live := looked.sound.books.looseLive are (List.mem_singleton.mpr rfl)
  have again : (retried (t.entry are)).retries ≤ ARP_RETRIES := by
    unfold retried
    rw [fresh]
    dsimp only
    decide
  obtain ⟨sent, calm, same⟩ := request_sound env t [are] nobody are looked.sound live again
  refine ⟨sent, paired_calm t _ nobody looked.paired calm same.arptab same.rarptab, calm.held.trans looked.held,
    calm.dest.trans looked.dest, calm.stale.trans looked.stale, fun other same' => ?_⟩
  rw [same.arptab]
  exact looked.listed other same'

theorem found_looked (s : Cache) (are : Nat) (sound : Sound s [] nobody) (paired : Paired s nobody)
    (listed : ∃ i, are ∈ s.arptab i) : Looked s (s.setEntry are (incLinks (s.entry are))) (some are) := by
  obtain ⟨i, member⟩ := listed
  have few := refs_bound s [] are sound.books
  rw [List.count_nil] at few
  obtain ⟨counted, calm⟩ := inc_sound s [] nobody are sound (sound.books.prLive i are member) (by omega)
  refine ⟨counted, paired_calm s _ nobody paired calm rfl rfl, rfl, rfl, rfl, fun other same => ?_⟩
  rw [← Option.some.inj same]
  exact ⟨i, member⟩

theorem lookup_looked (env : Env) (s s' : Cache) (nocreat noresolv : Bool) (nif : Option Nat) (type : BitVec 16) (len : Nat)
    (addr : Buffer) (found : Option Nat) (sound : Sound s [] nobody) (paired : Paired s nobody)
    (result : arpLookup env s nocreat noresolv nif type len addr = some (s', found)) : Looked s s' found := by
  unfold arpLookup at result
  rw [walk_of_live _ _ s (sound.books.prLive _)] at result
  cases hit : (s.arptab (arpHash addr len)).find? fun are => prMatches env (s.entry are) nif type len addr with
  | some are =>
      rw [hit] at result
      obtain ⟨rfl, rfl⟩ := Prod.mk.inj (Option.some.inj result)
      exact found_looked s are sound paired ⟨_, List.mem_of_find?_eq_some hit⟩
  | none =>
      rw [hit] at result
      cases nif with
      | none =>
          obtain ⟨rfl, rfl⟩ := Prod.mk.inj (Option.some.inj result)
          exact looked_none s sound paired
      | some nif =>
          dsimp only at result
          split at result
          · obtain ⟨rfl, rfl⟩ := Prod.mk.inj (Option.some.inj result)
            exact looked_none s sound paired
          · split at result
            · cases result
            · obtain ⟨made, rfl⟩ := Prod.mk.inj (Option.some.inj result)
              have created := create_looked env s nif type len addr sound paired
              rw [← made]
              split
              · exact created
              · refine looked_request env s _ s.allocs created ?_
                rw [(create_here env s nif type len addr).1]
                rfl

theorem lookup_none (env : Env) (s : Cache) (nocreat noresolv : Bool) (nif : Option Nat) (type : BitVec 16) (len : Nat)
    (addr : Buffer) (result : arpLookup env s nocreat noresolv nif type len addr = none) :
    nocreat = false ∧ ADR_SIZE < len := by
  unfold arpLookup at result
  split at result
  · cases result
  · split at result
    · cases result
    · split at result
      · cases result
      · rename_i make
        split at result
        · rename_i long
          simp only [Bool.or_eq_true, not_or, Bool.not_eq_true] at make
          exact ⟨make.1, long⟩
        · cases result

end MagxNet.Arp
