import MagxNet.Lib.Sessions

set_option autoImplicit false

namespace MagxNet.Slip

inductive Driver
  | slip
  | ppp
deriving DecidableEq, Repr

def SLIP_CHANNELS : Nat := 4
def PPP_CHANNELS : Nat := 1
def NSLBUFS : Nat := 4
def ENOMEM : Int := -39

def channels : Driver → Nat
  | .slip => SLIP_CHANNELS
  | .ppp => PPP_CHANNELS

-- What struct slip and struct ppp have in common, as far as linking and closing go; 0 is a null pointer, slbuf an index into
-- allslbufs.
structure Channel where
  linked : Bool
  sndBuf : Nat
  sndHead : Nat
  sndTail : Nat
  rcvBuf : Nat
  rcvHead : Nat
  rcvTail : Nat
  comp : Nat
  slbuf : Option Nat
deriving DecidableEq, Repr

-- The maps and the escape flag of a struct ppp.
structure Maps where
  esc : Bool
  xmap : List (BitVec 32)
  rmap : List (BitVec 32)
deriving DecidableEq, Repr

-- nif is the interface that the buffer was opened for: its driver and its unit.
structure Slbuf where
  inuse : Bool
  sending : Bool
  closing : Bool
  fd : BitVec 16
  nif : Option (Driver × Nat)
  ibuf : Nat
  obuf : Nat
deriving DecidableEq, Repr

-- slip_priv, ppp_priv and allslbufs. What is behind the last entry of a table is other memory.
structure Drivers where
  channel : Driver → Nat → Channel
  maps : Nat → Maps
  slbuf : Nat → Slbuf

def setChannel (s : Drivers) (d : Driver) (i : Nat) (c : Channel) : Drivers :=
  { s with channel := Function.update s.channel d (Function.update (s.channel d) i c) }

-- What slc_init, the two calls of mxalloc and f_open give; without Fopen there is no descriptor.
structure Supply where
  comp : Nat
  ibuf : Nat
  obuf : Nat
  fopen : Option (BitVec 16)

-- The loop goes on to the last buffer that is not in use.
def serialOpen (slbufs : Nat → Slbuf) (nif : Driver × Nat) (supply : Supply) : Option Nat × (Nat → Slbuf) :=
  let slbufs := fun k => if k < NSLBUFS ∧ (slbufs k).inuse = false then { slbufs k with ibuf := 0, obuf := 0 } else slbufs k
  match (List.range NSLBUFS).reverse.find? fun k => !(slbufs k).inuse with
  | none => (none, slbufs)
  | some k =>
      let sl : Slbuf := { slbufs k with
        inuse := true, sending := false, closing := false, nif := some nif, ibuf := supply.ibuf, obuf := supply.obuf }
      if supply.ibuf = 0 ∨ supply.obuf = 0 then
        (none, Function.update slbufs k { sl with ibuf := 0, obuf := 0, inuse := false })
      else
        let sl : Slbuf := { sl with fd := supply.fopen.getD (-1) }
        if sl.fd.toInt < 0 then (none, Function.update slbufs k { sl with ibuf := 0, obuf := 0, inuse := false })
        else (some k, Function.update slbufs k sl)

-- fclose is what Fclose returns, if there is one.
def serialClose (sl : Slbuf) (fclose : Option (BitVec 16)) : Slbuf :=
  let sl : Slbuf := { sl with fd := fclose.getD sl.fd }
  if sl.fd = 0 then { sl with closing := false, sending := false, inuse := false } else { sl with closing := true }

-- The first channel that is not linked, or their number.
def freeChannel (table : Nat → Channel) (count : Nat) : Nat := (List.range count).findIdx fun i => !(table i).linked

-- What a request leaves: the drivers, what it returns, the interface whose name it gives, the entries of the channel table that
-- it reads or writes, and the buffers that it lets go.
structure Outcome where
  drivers : Drivers
  result : Int
  named : Option (Driver × Nat)
  entries : List Nat
  dereffed : List Nat

-- slip_link and ppp_link from the entry i on that they have found.
def linkAt (s : Drivers) (d : Driver) (i : Nat) (supply : Supply) : Outcome :=
  let c := s.channel d i
  let dereffed := [c.sndBuf, c.rcvBuf].filter fun buf => decide (buf ≠ 0)
  let entries := List.range (i + 1)
  let c : Channel := { c with sndBuf := 0, sndHead := 0, sndTail := 0, rcvBuf := 0, rcvHead := 0, rcvTail := 0, comp := supply.comp }
  if supply.comp = 0 then ⟨setChannel s d i c, ENOMEM, none, entries, dereffed⟩
  else
    match serialOpen s.slbuf (d, i) supply with
    | (none, slbufs) =>
        ⟨{ setChannel s d i { c with slbuf := none, comp := 0 } with slbuf := slbufs }, ENOMEM, none, entries, dereffed⟩
    | (some k, slbufs) =>
        ⟨{ setChannel s d i { c with slbuf := some k, linked := true } with slbuf := slbufs }, 0, some (d, i), entries, dereffed⟩

def slipLink (s : Drivers) (supply : Supply) : Outcome :=
  let i := freeChannel (s.channel .slip) SLIP_CHANNELS
  if SLIP_CHANNELS < i then ⟨s, ENOMEM, none, List.range SLIP_CHANNELS, []⟩ else linkAt s .slip i supply

-- MAP_SET for the characters below 32, ESC and FLAG.
def XMAP : List (BitVec 32) := [0xffffffff, 0, 0, 0x60000000, 0, 0, 0, 0]

def pppLink (s : Drivers) (supply : Supply) : Outcome :=
  let i := freeChannel (s.channel .ppp) PPP_CHANNELS
  if PPP_CHANNELS < i then ⟨s, ENOMEM, none, List.range PPP_CHANNELS, []⟩
  else linkAt { s with maps := Function.update s.maps i ⟨false, XMAP, [0]⟩ } .ppp i supply

-- slip_close and ppp_close; none where a linked channel had no buffer.
def close (s : Drivers) (d : Driver) (i : Nat) (fclose : Option (BitVec 16)) : Option Outcome :=
  let c := s.channel d i
  if c.linked then
    c.slbuf.map fun k =>
      ⟨{ setChannel s d i { c with comp := 0, linked := false } with
          slbuf := Function.update s.slbuf k (serialClose (s.slbuf k) fclose) }, 0, none, [i], []⟩
  else some ⟨s, 0, none, [i], []⟩

-- SIOCSIFLINK to a driver, and the close of one of its interfaces.
inductive Call
  | link (d : Driver) (supply : Supply)
  | close (d : Driver) (i : Fin (channels d)) (fclose : Option (BitVec 16))

def perform (s : Drivers) : Call → Option Outcome
  | .link .slip supply => some (slipLink s supply)
  | .link .ppp supply => some (pppLink s supply)
  | .close d i fclose => close s d i fclose

-- The table of channels that a call is about.
def Call.driver : Call → Driver
  | .link d _ => d
  | .close d _ _ => d

def Linked (s : Drivers) (d : Driver) (i : Nat) : Prop := i < channels d ∧ (s.channel d i).linked = true

def AllLinked (s : Drivers) (d : Driver) : Prop := ∀ i < channels d, (s.channel d i).linked = true

instance (s : Drivers) (d : Driver) : Decidable (AllLinked s d) := inferInstanceAs (Decidable (∀ i < _, _))

-- The channels that were linked before, and their buffers, are what they were.
def Untouched (s s' : Drivers) : Prop :=
  ∀ d i, Linked s d i → s'.channel d i = s.channel d i ∧ ∀ k ∈ (s.channel d i).slbuf, s'.slbuf k = s.slbuf k

structure Meets (s : Drivers) (call : Call) (outcome : Outcome) : Prop where
  entries : ∀ i ∈ outcome.entries, i < channels call.driver
  full : ∀ d supply, call = .link d supply → AllLinked s d → outcome.result = ENOMEM ∧ Untouched s outcome.drivers
  named : ∀ d i, outcome.named = some (d, i) → ¬ Linked s d i ∧ Linked outcome.drivers d i ∧ Untouched s outcome.drivers
  alone : ∀ d i d' i', Linked outcome.drivers d i → Linked outcome.drivers d' i' →
    (outcome.drivers.channel d i).slbuf = (outcome.drivers.channel d' i').slbuf → d = d' ∧ i = i'

-- A driver is not asked for another channel while all of its channels are linked.
def Spare (s : Drivers) : Call → Prop
  | .link d _ => ¬ AllLinked s d
  | .close _ _ _ => True

-- Each linked channel has a buffer that is in use for its interface.
def Inv (s : Drivers) : Prop :=
  ∀ d i, Linked s d i → ∃ k, (s.channel d i).slbuf = some k ∧ k < NSLBUFS ∧ (s.slbuf k).inuse = true ∧ (s.slbuf k).nif = some (d, i)

-- What serial_open leaves: the buffers that were in use, and a buffer for the interface if it gives one.
theorem serial_open (slbufs : Nat → Slbuf) (nif : Driver × Nat) (supply : Supply) :
    (∀ k, (slbufs k).inuse = true → (serialOpen slbufs nif supply).2 k = slbufs k)
      ∧ ∀ k, (serialOpen slbufs nif supply).1 = some k → k < NSLBUFS ∧ (slbufs k).inuse = false
        ∧ ((serialOpen slbufs nif supply).2 k).inuse = true ∧ ((serialOpen slbufs nif supply).2 k).nif = some nif := by
  unfold serialOpen
  generalize swept : (fun k => if k < NSLBUFS ∧ (slbufs k).inuse = false then { slbufs k with ibuf := 0, obuf := 0 } else slbufs k)
    = free
  have inuse : ∀ k, (free k).inuse = (slbufs k).inuse := fun k => by
    rw [← swept]
    dsimp only
    split <;> rfl
  have kept : ∀ k, (slbufs k).inuse = true → free k = slbufs k := fun k busy => by
    rw [← swept]
    exact if_neg fun both => by cases busy.symm.trans both.2
  dsimp only
  cases found : (List.range NSLBUFS).reverse.find? fun k => !(free k).inuse with
  | none => exact ⟨kept, fun _ none => by cases none⟩
  | some k =>
      have within : k < NSLBUFS := by simpa using List.mem_of_find?_eq_some found
      have unused : (slbufs k).inuse = false := by
        have unused := List.find?_some found
        simpa [inuse] using unused
      have others : ∀ sl j, (slbufs j).inuse = true → Function.update free k sl j = slbufs j := fun sl j busy => by
        have apart : j ≠ k := by
          rintro rfl
          cases busy.symm.trans unused
        rw [Function.update_of_ne apart, kept j busy]
      dsimp only
      split
      · exact ⟨others _, fun _ none => by cases none⟩
      · split
        · exact ⟨others _, fun _ none => by cases none⟩
        · refine ⟨others _, ?_⟩
          rintro _ ⟨⟩
          dsimp only
          rw [Function.update_self]
          exact ⟨within, unused, rfl, rfl⟩

-- No two linked channels have one buffer: it has one interface.
theorem inv_alone (s : Drivers) (inv : Inv s) (d : Driver) (i : Nat) (d' : Driver) (i' : Nat) (linked : Linked s d i)
    (linked' : Linked s d' i') (same : (s.channel d i).slbuf = (s.channel d' i').slbuf) : d = d' ∧ i = i' := by
  obtain ⟨k, has, -, -, nif⟩ := inv d i linked
  obtain ⟨k', has', -, -, nif'⟩ := inv d' i' linked'
  obtain rfl := Option.some.inj (has.symm.trans (same.trans has'))
  exact Prod.mk.inj (Option.some.inj (nif.symm.trans nif'))

theorem set_channel_here (s : Drivers) (d : Driver) (i : Nat) (c : Channel) : (setChannel s d i c).channel d i = c := by
  unfold setChannel
  dsimp only
  rw [Function.update_self, Function.update_self]

theorem set_channel_other (s : Drivers) (d : Driver) (i : Nat) (c : Channel) (d' : Driver) (i' : Nat) (other : (d', i') ≠ (d, i)) :
    (setChannel s d i c).channel d' i' = s.channel d' i' := by
  unfold setChannel
  dsimp only
  by_cases same : d' = d
  · subst same
    rw [Function.update_self, Function.update_of_ne fun eq => other (congrArg (d', ·) eq)]
  · rw [Function.update_of_ne same]

section Link

variable (s : Drivers) (inv : Inv s) (d : Driver) (i : Nat) (unlinked : (s.channel d i).linked = false)

include unlinked

theorem linked_other (d' : Driver) (i' : Nat) (linked : Linked s d' i') : (d', i') ≠ (d, i) := by
  rintro ⟨⟩
  cases unlinked.symm.trans linked.2

include inv

-- A channel that is not linked is written, and buffers that are not in use: the linked ones are what they were.
theorem untouched_link (c : Channel) (slbufs : Nat → Slbuf) (kept : ∀ k, (s.slbuf k).inuse = true → slbufs k = s.slbuf k) :
    Untouched s { setChannel s d i c with slbuf := slbufs } := by
  intro d' i' linked
  refine ⟨set_channel_other s d i c d' i' (linked_other s d i unlinked d' i' linked), fun k has => ?_⟩
  obtain ⟨k', has', -, busy, -⟩ := inv d' i' linked
  obtain rfl := Option.some.inj (has'.symm.trans has)
  exact kept k' busy

theorem inv_untouched (s' : Drivers) (untouched : Untouched s s') (others : ∀ d' i', (d', i') ≠ (d, i) →
    s'.channel d' i' = s.channel d' i') (here : (s'.channel d i).linked = true → ∃ k, (s'.channel d i).slbuf = some k ∧ k < NSLBUFS
      ∧ (s'.slbuf k).inuse = true ∧ (s'.slbuf k).nif = some (d, i)) : Inv s' := by
  intro d' i' linked
  by_cases same : (d', i') = (d, i)
  · obtain ⟨rfl, rfl⟩ := Prod.mk.inj same
    exact here linked.2
  · have linked0 : Linked s d' i' := ⟨linked.1, by rw [← others d' i' same]; exact linked.2⟩
    obtain ⟨k, has, within, busy, nif⟩ := inv d' i' linked0
    obtain ⟨channel, buffer⟩ := untouched d' i' linked0
    refine ⟨k, by rw [channel, has], within, ?_, ?_⟩
    · rw [buffer k has, busy]
    · rw [buffer k has, nif]

omit inv in
-- What linking a free entry leaves.
theorem link_at (inv : Inv s) (within : i < channels d) (supply : Supply) :
    let outcome := linkAt s d i supply
    Inv outcome.drivers ∧ Untouched s outcome.drivers ∧ outcome.entries = List.range (i + 1)
      ∧ ∀ d' i', outcome.named = some (d', i') → d' = d ∧ i' = i ∧ Linked outcome.drivers d i := by
  obtain ⟨kept, given⟩ := serial_open s.slbuf (d, i) supply
  have written : ∀ (c : Channel) (slbufs : Nat → Slbuf), (∀ k, (s.slbuf k).inuse = true → slbufs k = s.slbuf k) →
      (c.linked = true → ∃ k, c.slbuf = some k ∧ k < NSLBUFS ∧ (slbufs k).inuse = true ∧ (slbufs k).nif = some (d, i)) →
      Inv { setChannel s d i c with slbuf := slbufs } ∧ Untouched s { setChannel s d i c with slbuf := slbufs } := by
    intro c slbufs same here
    have untouched := untouched_link s inv d i unlinked c slbufs same
    refine ⟨inv_untouched s inv d i unlinked _ untouched (set_channel_other s d i c) fun linked => ?_, untouched⟩
    have channel : ({ setChannel s d i c with slbuf := slbufs } : Drivers).channel d i = c := set_channel_here s d i c
    rw [channel] at linked ⊢
    exact here linked
  unfold linkAt
  dsimp only
  by_cases comp : supply.comp = 0
  · rw [if_pos comp]
    obtain ⟨inv', untouched⟩ := written { s.channel d i with
      sndBuf := 0, sndHead := 0, sndTail := 0, rcvBuf := 0, rcvHead := 0, rcvTail := 0, comp := supply.comp } s.slbuf (fun _ _ => rfl)
      fun linked => (by cases unlinked.symm.trans linked)
    exact ⟨inv', untouched, rfl, fun _ _ none => by cases none⟩
  · rw [if_neg comp]
    cases result : serialOpen s.slbuf (d, i) supply with
    | mk found slbufs =>
        rw [result] at kept given
        cases found with
        | none =>
            obtain ⟨inv', untouched⟩ := written ⟨(s.channel d i).linked, 0, 0, 0, 0, 0, 0, 0, none⟩ slbufs kept fun linked => (by
              cases unlinked.symm.trans linked)
            exact ⟨inv', untouched, rfl, fun _ _ none => by cases none⟩
        | some k =>
            obtain ⟨small, -, busy, nif⟩ := given k rfl
            obtain ⟨inv', untouched⟩ := written ⟨true, 0, 0, 0, 0, 0, 0, supply.comp, some k⟩ slbufs kept fun _ =>
              ⟨k, rfl, small, busy, nif⟩
            refine ⟨inv', untouched, rfl, ?_⟩
            rintro _ _ ⟨⟩
            refine ⟨rfl, rfl, within, ?_⟩
            dsimp only
            rw [set_channel_here]

end Link

theorem free_channel (table : Nat → Channel) (count : Nat) :
    (∀ i < count, (table i).linked = true) ∧ freeChannel table count = count
      ∨ freeChannel table count < count ∧ (table (freeChannel table count)).linked = false := by
  unfold freeChannel
  by_cases all : ∀ i < count, (table i).linked = true
  · refine Or.inl ⟨all, ?_⟩
    have none := List.findIdx_eq_length.mpr fun i member => (show (!(table i).linked) = false by
      rw [all i (List.mem_range.mp member)]; rfl)
    rwa [List.length_range] at none
  · refine Or.inr ?_
    push Not at all
    obtain ⟨i, within, unlinked⟩ := all
    have inside := List.findIdx_lt_length_of_exists (p := fun i => !(table i).linked)
      ⟨i, List.mem_range.mpr within, by simpa using unlinked⟩
    have found := List.findIdx_getElem (w := inside)
    rw [List.getElem_range] at found
    rw [List.length_range] at inside
    exact ⟨inside, by simpa using found⟩

-- The requests of the two drivers, from the entry that they find.
theorem link_channel (s : Drivers) (d : Driver) (supply : Supply) :
    ∃ s', s'.channel = s.channel ∧ s'.slbuf = s.slbuf
      ∧ perform s (.link d supply) = some (linkAt s' d (freeChannel (s.channel d) (channels d)) supply) := by
  cases d with
  | slip =>
      have bound : ¬ SLIP_CHANNELS < freeChannel (s.channel .slip) SLIP_CHANNELS := by
        obtain ⟨-, full⟩ | ⟨inside, -⟩ := free_channel (s.channel .slip) SLIP_CHANNELS <;> omega
      exact ⟨s, rfl, rfl, congrArg some (if_neg bound)⟩
  | ppp =>
      have bound : ¬ PPP_CHANNELS < freeChannel (s.channel .ppp) PPP_CHANNELS := by
        obtain ⟨-, full⟩ | ⟨inside, -⟩ := free_channel (s.channel .ppp) PPP_CHANNELS <;> omega
      exact ⟨{ s with maps := Function.update s.maps (freeChannel (s.channel .ppp) PPP_CHANNELS) ⟨false, XMAP, [0]⟩ }, rfl, rfl,
        congrArg some (if_neg bound)⟩

-- An interface is closed.
theorem close_channel (s : Drivers) (inv : Inv s) (d : Driver) (i : Nat) (within : i < channels d) (fclose : Option (BitVec 16)) :
    ∃ outcome, close s d i fclose = some outcome ∧ Inv outcome.drivers ∧ outcome.entries = [i] ∧ outcome.named = none := by
  unfold close
  dsimp only
  by_cases linked : (s.channel d i).linked = true
  · obtain ⟨k, has, small, busy, nif⟩ := inv d i ⟨within, linked⟩
    rw [if_pos linked, has]
    refine ⟨_, rfl, ?_, rfl, rfl⟩
    rintro d' i' ⟨within', linked'⟩
    dsimp only at linked' ⊢
    by_cases same : (d', i') = (d, i)
    · obtain ⟨rfl, rfl⟩ := Prod.mk.inj same
      rw [set_channel_here] at linked'
      cases linked'
    · rw [set_channel_other s d i _ d' i' same] at linked' ⊢
      obtain ⟨k', has', small', busy', nif'⟩ := inv d' i' ⟨within', linked'⟩
      have apart : k' ≠ k := by
        rintro rfl
        exact same (Option.some.inj (nif'.symm.trans nif))
      refine ⟨k', has', small', ?_, ?_⟩
      · rw [Function.update_of_ne apart, busy']
      · rw [Function.update_of_ne apart, nif']
  · rw [if_neg linked]
    exact ⟨_, rfl, inv, rfl, rfl⟩

theorem spare_meets (s : Drivers) (inv : Inv s) (call : Call) (spare : Spare s call) :
    ∃ outcome, perform s call = some outcome ∧ Meets s call outcome ∧ Inv outcome.drivers := by
  cases call with
  | link d supply =>
      obtain ⟨s', channel, slbuf, result⟩ := link_channel s d supply
      obtain ⟨all, -⟩ | ⟨within, unlinked⟩ := free_channel (s.channel d) (channels d)
      · exact absurd all spare
      · have inv' : Inv s' := by
          unfold Inv Linked
          rw [channel, slbuf]
          exact inv
        rw [← channel] at unlinked
        obtain ⟨after, untouched, entries, named⟩ := link_at s' d _ unlinked inv' (channel ▸ within) supply
        have same : ∀ s'' : Drivers, Untouched s' s'' ↔ Untouched s s'' := fun s'' => by
          unfold Untouched Linked
          rw [channel, slbuf]
        rw [channel] at after untouched entries named
        refine ⟨_, result, ⟨?_, ?_, fun d' i' name => ?_, fun d' i' d'' i'' first second =>
          inv_alone _ after d' i' d'' i'' first second⟩, after⟩
        · rw [entries]
          intro j member
          exact (Nat.lt_succ_iff.mp (List.mem_range.mp member)).trans_lt within
        · rintro d' supply' ⟨⟩ all
          exact absurd all spare
        · obtain ⟨rfl, rfl, linked⟩ := named d' i' name
          refine ⟨fun old => ?_, linked, (same _).mp untouched⟩
          rw [channel] at unlinked
          cases unlinked.symm.trans old.2
  | close d i fclose =>
      obtain ⟨outcome, result, inv', entries, named⟩ := close_channel s inv d i i.isLt fclose
      refine ⟨outcome, result, ⟨?_, fun _ _ other => (by cases other), fun d' i' none => ?_,
        fun d' i' d'' i'' first second => inv_alone _ inv' d' i' d'' i'' first second⟩, inv'⟩
      · rw [entries]
        rintro j member
        obtain rfl := List.mem_singleton.mp member
        exact i.isLt
      · rw [named] at none
        cases none

-- A request to a driver that has no channel left goes on behind the table.
theorem full_access (s : Drivers) (call : Call) (full : ¬ Spare s call) (outcome : Outcome)
    (result : perform s call = some outcome) : ¬ Meets s call outcome := by
  intro meets
  cases call with
  | link d supply =>
      obtain ⟨s', -, -, result'⟩ := link_channel s d supply
      obtain rfl := Option.some.inj (result'.symm.trans result)
      obtain ⟨-, bound⟩ | ⟨within, unlinked⟩ := free_channel (s.channel d) (channels d)
      · rw [bound] at meets
        have member : channels d ∈ (linkAt s' d (channels d) supply).entries := by
          have entries : (linkAt s' d (channels d) supply).entries = List.range (channels d + 1) := by
            unfold linkAt
            dsimp only
            split
            · rfl
            · split <;> rfl
          rw [entries]
          exact List.mem_range.mpr (Nat.lt_succ_self _)
        exact (meets.entries _ member).false
      · cases (not_not.mp full _ within).symm.trans unlinked
  | close d i fclose => exact full trivial

def AllMeet : Drivers → List Call → Prop := Sessions.AllMeet perform (fun _ _ outcome => outcome.drivers) Meets

def AllSpare : Drivers → List Call → Prop := Sessions.AllAllowed perform (fun _ _ outcome => outcome.drivers) Spare

theorem meet_iff_spare (calls : List Call) (s : Drivers) (inv : Inv s) : AllMeet s calls ↔ AllSpare s calls :=
  Sessions.all_meet_iff perform _ Meets Spare Inv (fun s call inv spare => spare_meets s inv call spare)
    (fun s call _ full outcome result => full_access s call full outcome result) calls s inv

-- The tables are static: they begin with zeros. What is behind them may be anything.
def booted (memory : Drivers) : Drivers where
  channel d i := if i < channels d then ⟨false, 0, 0, 0, 0, 0, 0, 0, none⟩ else memory.channel d i
  maps := memory.maps
  slbuf k := if k < NSLBUFS then ⟨false, false, false, 0, none, 0, 0⟩ else memory.slbuf k

theorem booted_inv (memory : Drivers) : Inv (booted memory) := by
  rintro d i ⟨within, linked⟩
  unfold booted at linked
  dsimp only at linked
  rw [if_pos within] at linked
  cases linked

theorem channels_kept (memory : Drivers) (calls : List Call) : AllMeet (booted memory) calls ↔ AllSpare (booted memory) calls :=
  meet_iff_spare calls _ (booted_inv memory)

-- The only PPP channel is linked, and asked for once more.
theorem channel_behind : ¬ ∀ (memory : Drivers) (calls : List Call), AllMeet (booted memory) calls := by
  intro claim
  have meet := claim ⟨fun _ _ => ⟨false, 0, 0, 0, 0, 0, 0, 0, none⟩, fun _ => ⟨false, [], []⟩, fun _ => ⟨false, false, false, 0, none, 0, 0⟩⟩
    [.link .ppp ⟨1, 1, 1, some 6⟩, .link .ppp ⟨1, 1, 1, some 6⟩]
  have spare := ((meet_iff_spare _ _ (booted_inv _)).mp meet).2 _ rfl
  exact spare.1 (by decide)

end MagxNet.Slip
