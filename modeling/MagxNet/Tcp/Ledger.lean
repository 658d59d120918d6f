import MagxNet.Tcp.Frame

set_option autoImplicit false

namespace MagxNet.Tcp

open Bytes Serial

-- What a segment on the send queue holds, in the order of its sequence numbers.
def items (th : Dgram) : List Item :=
  (if th.flags.syn then [.syn] else []) ++ (tcpData th).map .byte ++ (if th.flags.fin then [.fin] else [])

structure SegOk (th : Dgram) : Prop where
  header : 5 ≤ th.hdrlen.toNat
  room : tcpHdrlen th ≤ TCP_MINLEN + th.body.length
  datlen : th.urgptr.toNat = (tcpData th).length
  some : items th ≠ []

theorem items_length (th : Dgram) (ok : SegOk th) : tcpSeglen th = (items th).length := by
  have data : ((tcpData th).length : Int) = tcpDatalen th := by
    have room := ok.room
    rw [data_length, tcpDatalen]
    omega
  unfold tcpSeglen items
  rw [← data]
  cases th.flags.syn <;> cases th.flags.fin <;> simp

theorem items_data (th : Dgram) (ok : SegOk th) :
    th.urgptr.toNat ≤ (items th).length ∧ (items th).length ≤ th.urgptr.toNat + 2 := by
  rw [ok.datlen]
  unfold items
  cases th.flags.syn <;> cases th.flags.fin <;> simp
  omega

-- The segments lie side by side from position i of the stream on.
def Lined (isn : Seq) : Nat → List Dgram → Prop
  | _, [] => True
  | i, th :: rest => th.seq = place isn i ∧ SegOk th ∧ Lined isn (i + (items th).length) rest

theorem lined_append (isn : Seq) (front rest : List Dgram) (i : Nat) :
    Lined isn i (front ++ rest) ↔ Lined isn i front ∧ Lined isn (i + (front.flatMap items).length) rest := by
  induction front generalizing i with
  | nil => simp [Lined]
  | cons th front ih =>
      rw [List.cons_append, Lined, Lined, ih, List.flatMap_cons, List.length_append, Nat.add_assoc]
      tauto

def dataLen (segs : List Dgram) : Nat := (segs.map fun th => th.urgptr.toNat).sum

-- The part of a connection that says what was written, sent and acked.
structure Ledger where
  isn : Seq
  una : Seq
  max : Seq
  write : Seq
  stream : List Item
  segs : List Dgram
  count : BitVec 32
  room : Int
  mss : Int

def ledger (w : World) : Ledger :=
  ⟨w.tcb.sndIsn, w.tcb.sndUna, w.tcb.sndMax, w.tcb.seqWrite, w.stream, w.data.snd.q.map Buf.th,
    w.data.snd.curdatalen, w.data.snd.maxdatalen, w.tcb.sndMss⟩

def Item.isByte : Item → Bool
  | .byte _ => true
  | _ => false

-- SYN and FIN are all that a stream holds besides bytes.
def marks (stream : List Item) : Nat := stream.countP fun item => !item.isByte

-- The queue holds the stream from position s on; u and m are the positions of snd_una and snd_max.
structure Kept (l : Ledger) (s u m : Nat) : Prop where
  una : l.una = place l.isn u
  max : l.max = place l.isn m
  write : l.write = place l.isn l.stream.length
  lined : Lined l.isn s l.segs
  content : l.segs.flatMap items = l.stream.drop s
  unacked : s ≤ u
  sent : u ≤ m
  written : m ≤ l.stream.length
  count : l.count = BitVec.ofNat 32 (dataLen l.segs)
  fits : dataLen l.segs ≤ 65535
  room : 4096 ≤ l.room ∧ l.room ≤ 65535
  mss : 32 ≤ l.mss ∧ l.mss ≤ 65535
  marks : marks l.stream ≤ 2

def SendInv (w : World) : Prop := ∃ s u m, Kept (ledger w) s u m

theorem marks_items (th : Dgram) (ok : SegOk th) : (items th).length = th.urgptr.toNat + marks (items th) := by
  have bytes : ∀ data : List Byte, (data.map Item.byte).countP (fun item => !item.isByte) = 0 := by
    intro data
    rw [List.countP_eq_zero]
    intro item member
    obtain ⟨b, -, rfl⟩ := List.mem_map.mp member
    simp [Item.isByte]
  rw [ok.datlen]
  unfold items marks
  simp only [List.countP_append, bytes, List.length_append, List.length_map]
  cases th.flags.syn <;> cases th.flags.fin <;> simp [Item.isByte] <;> omega

theorem lined_length (isn : Seq) (i : Nat) (segs : List Dgram) (lined : Lined isn i segs) :
    (segs.flatMap items).length = dataLen segs + marks (segs.flatMap items) := by
  induction segs generalizing i with
  | nil => rfl
  | cons th rest ih =>
      obtain ⟨-, ok, later⟩ := lined
      have here := marks_items th ok
      have there := ih _ later
      unfold dataLen marks at *
      rw [List.flatMap_cons, List.length_append, List.countP_append, List.map_cons, List.sum_cons]
      omega

namespace Kept

variable {l : Ledger} {s u m : Nat}

theorem started (kept : Kept l s u m) : s ≤ l.stream.length := by
  have unacked := kept.unacked
  have sent := kept.sent
  have written := kept.written
  omega

-- Everything on the queue lies within 65537 numbers.
theorem span (kept : Kept l s u m) : l.stream.length = s + (l.segs.flatMap items).length := by
  have started := kept.started
  rw [kept.content, List.length_drop]
  omega

theorem near (kept : Kept l s u m) : l.stream.length ≤ s + 65537 := by
  have length := lined_length l.isn s l.segs kept.lined
  have few : MagxNet.Tcp.marks (l.segs.flatMap items) ≤ MagxNet.Tcp.marks l.stream := by
    rw [kept.content]
    exact (List.drop_sublist s l.stream).countP_le
  have fits := kept.fits
  have marks := kept.marks
  rw [kept.span]
  omega

end Kept

theorem seq_lt_near (isn : Seq) (i j : Nat) (near : i ≤ j + 100000) (near' : j ≤ i + 100000) :
    SEQLT (place isn i) (place isn j) ↔ i < j := by
  rw [SEQLT, lt_place isn i j (by omega) (by omega)]
  omega

theorem seq_le_near (isn : Seq) (i j : Nat) (near : i ≤ j + 100000) (near' : j ≤ i + 100000) :
    SEQLE (place isn i) (place isn j) ↔ i ≤ j := by
  rw [SEQLE, le_place isn i j (by omega) (by omega)]
  omega

-- Where a queued segment begins and ends.
theorem Kept.located {l : Ledger} {s u m : Nat} (kept : Kept l s u m) (front rest : List Dgram) (th : Dgram)
    (split : l.segs = front ++ th :: rest) :
    ∃ i, s ≤ i ∧ th.seq = place l.isn i ∧ SegOk th ∧ i + (items th).length ≤ l.stream.length
      ∧ Lined l.isn (i + (items th).length) rest ∧ items th <+: l.stream.drop i := by
  have lined := kept.lined
  rw [split, lined_append] at lined
  obtain ⟨-, seq, ok, later⟩ := lined
  have span := kept.span
  have content := kept.content
  rw [split, List.flatMap_append, List.flatMap_cons] at span content
  rw [List.length_append, List.length_append] at span
  refine ⟨s + (front.flatMap items).length, by omega, seq, ok, by omega, later, ?_⟩
  rw [← List.drop_drop, ← content, List.drop_left]
  exact List.prefix_append _ _

theorem seq_end_place (isn : Seq) (i : Nat) (b : Buf) (seq : b.th.seq = place isn i) (ok : SegOk b.th) :
    seqEnd b = place isn (i + (items b.th).length : Nat) := by
  rw [seqEnd, seq, items_length b.th ok, place_add, Nat.cast_add]

-- snd_max may move up to any position that is written.
theorem kept_raise {l : Ledger} {s u m : Nat} (kept : Kept l s u m) (x : Nat) (low : s ≤ x)
    (high : x ≤ l.stream.length) :
    Kept { l with max := if SEQLT l.max (place l.isn x) then place l.isn x else l.max } s u (max m x) := by
  have near := kept.near
  have unacked := kept.unacked
  have sent := kept.sent
  have written := kept.written
  have order : SEQLT l.max (place l.isn x) ↔ m < x := by
    rw [kept.max]
    exact seq_lt_near l.isn m x (by omega) (by omega)
  refine { kept with max := ?_, sent := by omega, written := by dsimp only; omega }
  dsimp only
  split
  · rename_i later
    rw [max_eq_right (order.mp later).le]
  · rename_i earlier
    rw [max_eq_left (by rw [order] at earlier; omega)]
    exact kept.max

-- snd_max may have moved on, and the rest is as before.
def Raises (l l' : Ledger) : Prop := ∀ s u m, Kept l s u m → ∃ m', m ≤ m' ∧ Kept l' s u m'

theorem raises_refl (l : Ledger) : Raises l l := fun _ _ m sends => ⟨m, le_refl m, sends⟩

theorem raises_of_eq (l l' : Ledger) (same : l' = l) : Raises l l' := by
  rw [same]
  exact raises_refl l

theorem raises_trans (l l' l'' : Ledger) (first : Raises l l') (second : Raises l' l'') : Raises l l'' := by
  intro s u m sends
  obtain ⟨m', later, sends'⟩ := first s u m sends
  obtain ⟨m'', later', sends''⟩ := second s u m' sends'
  exact ⟨m'', later.trans later', sends''⟩

theorem ledger_extend_max (w : World) (front rest : List Buf) (b : Buf) (n : Nat)
    (queued : w.data.snd.q = front ++ b :: rest) (some : ∀ b2 ∈ rest.head?, n ≤ DATLEN b2) :
    Raises (ledger w) (ledger (extendMax w rest n)) := by
  cases shape : rest with
  | nil => exact raises_refl _
  | cons b2 rest =>
      intro s u m sends
      rw [shape] at queued some
      have split : (ledger w).segs = (front ++ [b]).map Buf.th ++ b2.th :: rest.map Buf.th := by
        change w.data.snd.q.map Buf.th = _
        rw [queued]
        simp
      obtain ⟨i, low, seq, ok, high, -, -⟩ := sends.located _ _ _ split
      have bytes := (items_data b2.th ok).1
      have few : n ≤ b2.th.urgptr.toNat := some b2 rfl
      have at2 : SEQ1ST b2 + BitVec.ofNat 32 n = place (ledger w).isn (i + n : Nat) := by
        rw [SEQ1ST, seq, ← BitVec.ofInt_natCast, place_add, Nat.cast_add]
      have raised := kept_raise sends (i + n) (by omega) (by omega)
      unfold extendMax
      rw [List.head?_cons]
      dsimp only
      rw [at2]
      by_cases later : n > 0 ∧ SEQLT w.tcb.sndMax (place (ledger w).isn (i + n : Nat))
      · rw [if_pos later]
        rw [if_pos (by exact later.2)] at raised
        exact ⟨_, le_max_left _ _, raised⟩
      · rw [if_neg later]
        exact ⟨m, le_refl m, sends⟩

theorem extension_le (w : World) (tcph : Dgram) (finCut : Bool) (rest : List Buf) (nretrans : Int) :
    ∀ b2 ∈ rest.head?, extension w tcph finCut rest nretrans ≤ DATLEN b2 := by
  intro b2 atHead
  unfold extension
  rw [Option.mem_def.mp atHead]
  dsimp only
  split
  · exact min_le_left _ _
  · exact Nat.zero_le _

theorem ledger_rcvwnd (w : World) (update : Bool) : ledger (tcpRcvwnd w update).2 = ledger w := by
  unfold tcpRcvwnd
  split <;> rfl

theorem ledger_sndseg_send (env : Env) (w : World) (b : Buf) (rest : List Buf) (tcph : Dgram) :
    ledger (sndsegSend env w b rest tcph).2 = ledger w :=
  ledger_rcvwnd w true

theorem sndseg_raises (env : Env) (w : World) (front rest : List Buf) (b : Buf) (nretrans : Int)
    (wnd1st wndnxt : Seq) (queued : w.data.snd.q = front ++ b :: rest) :
    Raises (ledger w) (ledger (tcpSndseg env w b rest nretrans wnd1st wndnxt).2) := by
  unfold tcpSndseg bufAlloc
  dsimp only
  split
  · rename_i got
    obtain ⟨-, rfl⟩ := Prod.mk.inj got
    exact raises_refl _
  · rename_i id w1 got
    obtain ⟨-, rfl⟩ := Prod.mk.inj got
    split
    · exact raises_refl _
    · exact raises_refl _
    · rename_i tcph finCut cut
      rw [ledger_sndseg_send]
      exact ledger_extend_max (bufAlloc env w).2 front rest b _ queued (extension_le w tcph finCut rest nretrans)

-- Without bytes of the next segment snd_max stays where it is.
theorem ledger_sndseg_plain (env : Env) (w : World) (b : Buf) (rest : List Buf) (wnd1st wndnxt : Seq) :
    ledger (tcpSndseg env w b rest 0 wnd1st wndnxt).2 = ledger w := by
  have none : ∀ tcph finCut, extension w tcph finCut rest 0 = 0 := by
    intro tcph finCut
    unfold extension
    split
    · rfl
    · dsimp only
      rw [if_neg (by simp)]
  unfold tcpSndseg bufAlloc
  dsimp only
  split
  · rename_i got
    obtain ⟨-, rfl⟩ := Prod.mk.inj got
    rfl
  · rename_i id w1 got
    obtain ⟨-, rfl⟩ := Prod.mk.inj got
    split
    · rfl
    · rfl
    · rw [ledger_sndseg_send, none, extendMax]
      split
      · rfl
      · dsimp only
        rw [if_neg (by simp)]
        rfl

theorem sndseg_keeps_queue (env : Env) (w : World) (b : Buf) (rest : List Buf) (nretrans : Int)
    (wnd1st wndnxt : Seq) : (tcpSndseg env w b rest nretrans wnd1st wndnxt).2.data.snd = w.data.snd := by
  unfold tcpSndseg bufAlloc
  dsimp only
  split
  · rename_i got
    obtain ⟨-, rfl⟩ := Prod.mk.inj got
    rfl
  · rename_i id w1 got
    obtain ⟨-, rfl⟩ := Prod.mk.inj got
    split
    · rfl
    · rfl
    · unfold sndsegSend tcpRcvwnd extendMax
      split
      · split <;> rfl
      · dsimp only
        split <;> split <;> rfl

end MagxNet.Tcp
