import MagxNet.Sld.PppTrip

set_option autoImplicit false

namespace MagxNet.Sld

open Bytes (Byte get8)

variable {τ π δ : Type}

-- A line on which anything may come in: every round ends, nothing is stored outside the receive buffer, and what is
-- handed on is what lies between delimiters, every text by itself.
structure Robust (d : Driver τ π δ) (kin : τ → τ → Prop) (opt : τ) (limit : Nat) (w : Line τ π δ) : Prop where
  ends : ∀ memory a, ∃ w', doWork d memory w a = some w'
  overrun : w.overrun = false
  buffer : ∀ b, w.rcvBuf = some b → b.limit = limit ∧ b.bytes.length < limit
  frames : Followed d kin opt w

theorem work_ends (d : Driver τ π δ) (tame : Tame d) (memory : Nat → Bool) (w : Line τ π δ) (a : Answers)
    (carried : Carried d w) (positive : 0 < d.limit w.opt) : ∃ w', doWork d memory w a = some w' := by
  have read := read_dev_carried d w a carried
  have same : (readDev w a).opt = w.opt := by
    unfold readDev
    split
    · have opt : (readFromStart a (readToEnd w a)).2.2.opt = w.opt :=
        (congrArg Line.opt (read_pieces_fed w a carried.inSound).same).trans rfl
      exact opt
    · rfl
  unfold doWork
  split
  · obtain ⟨w1, done⟩ := recv_ends d tame memory (readDev w a) read.inSound read.roomy (by rw [same]; exact positive)
    rw [done]
    exact ⟨_, rfl⟩
  · exact ⟨_, rfl⟩

theorem reached_robust (d : Driver τ π δ) (tame : Tame d) (kin : τ → τ → Prop) (steady : Steady d kin) (opt : τ)
    (limit : Nat) (room : d.limit opt = limit) (positive : 0 < limit) (w : Line τ π δ) (reached : Reached d opt w) :
    Robust d kin opt limit w := by
  have carried := reached_carried d tame opt w reached
  have followed := reached_followed d tame kin steady opt (by omega) w reached
  obtain ⟨texts, rest, outs, framed⟩ := followed
  have still : d.limit w.opt = limit := (steady.limit opt w.opt framed.same).trans room
  refine ⟨?_, carried.overrun, ?_, texts, rest, outs, framed⟩
  · intro memory a
    exact work_ends d tame memory w a carried (by rw [still]; omega)
  · intro b held
    obtain ⟨full, some'⟩ := carried.roomy b held
    unfold space at some'
    exact ⟨full.trans still, by omega⟩

namespace Slip

variable {σ : Type}

structure NoVj (t : SlipOpt σ) : Prop where
  compress : t.compress = false
  autocomp : t.autocomp = false

theorem slip_still (vj : Vj σ) (t : SlipOpt σ) (off : NoVj t) : Still (slipDriver vj) t := by
  constructor
  · intro packet
    change (slipBuild vj t packet).1 = t
    unfold slipBuild
    rw [if_neg (by simp [off.compress])]
  · intro bytes
    change (uncompress vj t bytes).1 = t
    unfold uncompress
    rw [off.compress, off.autocomp]
    split
    · rfl
    · split
      · rfl
      · split <;> rfl

theorem build_no_vj (vj : Vj σ) (t : SlipOpt σ) (b : List Byte) (off : NoVj t) : (slipBuild vj t b).2 = b := by
  unfold slipBuild
  rw [if_neg (by simp [off.compress])]

theorem slip_clear (vj vj' : Vj σ) (s t : SlipOpt σ) : Clear (slipDriver vj) s (slipDriver vj') t := by
  refine ⟨rfl, ?_, ?_, rfl⟩
  · intro c
    change END ∉ slipStuff c
    unfold slipStuff
    split
    · decide
    · split
      · decide
      · rename_i notEnd
        simp [Ne.symm notEnd]
  · intro c
    change unstuff slipData false (slipStuff c) = (false, [c])
    unfold slipStuff
    split
    · rename_i esc
      rw [esc]
      rfl
    · split
      · rename_i atEnd
        rw [atEnd]
        rfl
      · rename_i notEsc notEnd
        have plain : slipData false c = (false, some c) := by
          unfold slipData
          rw [if_neg notEsc]
          split
          · rfl
          · split <;> rfl
        simp [unstuff, plain]

-- A packet that slip_recv hands on as it is: of IP, by its first four bits, and of a size that the buffer holds.
structure Whole (t : SlipOpt σ) (b : List Byte) : Prop where
  ip : slcType b = TYPE_IP
  long : 3 ≤ b.length
  short : b.length ≤ t.mtu.toNat

-- The size of a receive buffer does not turn negative.
def Sized (t : SlipOpt σ) : Prop := t.mtu.toNat + 1 < 2 ^ 31

theorem limit_mtu (t : SlipOpt σ) (sized : Sized t) : slipLimit t = ((t.mtu.toNat + 1 : Nat) : Int) := by
  unfold Sized at sized
  have sum : (t.mtu + 1).toNat = t.mtu.toNat + 1 := by
    rw [BitVec.toNat_add]
    exact Nat.mod_eq_of_lt (by simp; omega)
  rw [slipLimit, BitVec.toInt_eq_toNat_of_lt (by omega), sum]

theorem whole_receipt (vj : Vj σ) (t : SlipOpt σ) (b : List Byte) (sized : Sized t) (whole : Whole t b) :
    receipt (slipDriver vj) t b = some b := by
  have long := whole.long
  have short := whole.short
  unfold receipt
  change (if slipLimit t ≤ _ ∨ decide (_ < 3) = true then none else (uncompress vj t b).2) = _
  rw [limit_mtu t sized, if_neg (by simp; omega), uncompress, if_pos whole.ip]

theorem whole_settled (vj : Vj σ) (t : SlipOpt σ) (b : List Byte) (ip : slcType b = TYPE_IP) :
    Settled (slipDriver vj) SameMtu t b := by
  intro t' _
  change (uncompress vj t' b).2 = (uncompress vj t b).2
  rw [uncompress, uncompress, if_pos ip, if_pos ip]

-- What a line hands on is what the other line was given.
theorem slip_round_trip (vj vj' : Vj σ) (sopt ropt : SlipOpt σ) (S R : SlipLine σ) (off : NoVj sopt)
    (sized : Sized ropt) (sends : Reached (slipDriver vj) sopt S) (receives : Reached (slipDriver vj') ropt R)
    (line : R.fromDev <+: S.toDev) (whole : ∀ b ∈ S.taken, Whole ropt b) :
    R.delivered <+: S.taken ∧ (S.sndBuf = none → R.seen = S.put → R.delivered = S.taken) := by
  obtain ⟨-, all⟩ := reached_streamed (slipDriver vj) (slip_tame vj) sopt (slip_still vj sopt off) S sends
  have out := (reached_carried (slipDriver vj) (slip_tame vj) sopt S sends).sent
  have into := (reached_carried (slipDriver vj') (slip_tame vj') ropt R receives).received
  have first : R.seen <+: R.fromDev := ⟨_, into⟩
  have second : S.toDev <+: S.put := ⟨_, out⟩
  have seen : R.seen <+: streamed (slipDriver vj) sopt S.taken := ((first.trans line).trans second).trans ⟨_, all⟩
  have built : ∀ b, ((slipDriver vj).build sopt b).2 = b := fun b => build_no_vj vj sopt b off
  have settled : ∀ b ∈ S.taken, Settled (slipDriver vj') SameMtu ropt ((slipDriver vj).build sopt b).2 := by
    intro b member
    rw [built]
    exact whole_settled vj' ropt b (whole b member).ip
  have same : (S.taken.filterMap fun b => receipt (slipDriver vj') ropt ((slipDriver vj).build sopt b).2) = S.taken := by
    have each : ∀ b ∈ S.taken, receipt (slipDriver vj') ropt ((slipDriver vj).build sopt b).2 = some (id b) := by
      intro b member
      rw [built]
      exact whole_receipt vj' ropt b sized (whole b member)
    rw [List.filterMap_eq_map_iff_forall_eq_some.mpr each, List.map_id]
  obtain ⟨texts, rest, outs, framed⟩ :=
    reached_followed (slipDriver vj') (slip_tame vj') SameMtu (slip_steady vj') ropt
      (by change 0 < slipLimit ropt; rw [limit_mtu ropt sized]; omega) R receives
  obtain ⟨early, every⟩ := received_packets (slipDriver vj) sopt (slipDriver vj') ropt (slip_clear vj vj' sopt ropt)
    SameMtu S.taken R.seen (rx R) R.delivered texts rest outs framed settled
  rw [same] at early every
  refine ⟨early seen, fun idle equal => every ?_⟩
  rw [← all, equal, pending, idle, List.append_nil]

theorem whole_dealt (vj : Vj σ) (s t : SlipOpt σ) (b : List Byte) (out : Option (List Byte)) (sized : Sized t)
    (whole : Whole t b) (dealt : Dealt (slipDriver vj) SameMtu t (stuffed (slipDriver vj) s b) out) : out = some b := by
  rw [stuffed_dealt (slipDriver vj) s (slipDriver vj) t (slip_clear vj vj s t) SameMtu b out
    (whole_settled vj t b whole.ip) dealt]
  exact whole_receipt vj t b sized whole

end Slip

namespace Ppp

variable {σ : Type}

-- An intact frame, of whatever station, under a map that covers what this one drops.
structure Intact (s t : PppOpt σ) (p : Packet) : Prop where
  escapes : Escapes s.xmap
  covers : Covers s t
  legal : Legal p
  unlike : Unlike s p
  fits : Fits s t p

theorem intact_dealt (vj : Vj σ) (s t : PppOpt σ) (p : Packet) (out : Option Received) (intact : Intact s t p)
    (dealt : Dealt (pppDriver vj) SameOpt t (stuffed (pppDriver vj) s (withFcs (framed s p))) out) :
    out = some (handOn t p) := by
  have fits := intact.fits
  unfold Fits at fits
  have frame : ∀ t', (pppRecvFrame vj t' (withFcs (framed s p))).2 = handOn t' p :=
    fun t' => recv_framed vj t' s p intact.legal intact.unlike
  have settled : Settled (pppDriver vj) SameOpt t (withFcs (framed s p)) := by
    intro t' same
    change some (pppRecvFrame vj t' _).2 = some (pppRecvFrame vj t _).2
    rw [frame, frame, hand_on_same t t' p same]
  rw [stuffed_dealt (pppDriver vj) s (pppDriver vj) t (ppp_clear vj vj s t intact.escapes intact.covers) SameOpt _ out settled
    dealt]
  have length : (withFcs (framed s p)).length = (framed s p).length + 2 := by
    simp [withFcs]
  have three : ¬ (false || decide ((withFcs (framed s p)).length < 3)) = true := by
    have := List.length_pos_iff.mpr (framed_some s p)
    simp
    omega
  unfold receipt
  change (if pppLimit t ≤ _ ∨ (false || decide (_ < 3)) = true then none
    else some (pppRecvFrame vj t (withFcs (framed s p))).2) = _
  rw [if_neg (not_or.mpr ⟨by omega, three⟩), frame]

end Ppp

namespace Slip

def plainOpt : SlipOpt Unit := ⟨1500, false, false, false, ()⟩

def openLine : SlipLine Unit := opened plainOpt 15 0 (List.replicate SL_IBUFSIZE 0) (List.replicate SL_OBUFSIZE 0)

-- Four bytes come in, the last of which is the first delimiter on this line.
def firstLine : SlipLine Unit :=
  (run (slipDriver noVj) openLine [.work (fun _ => true) ⟨4, none, none, 0, none, none⟩,
    .work (fun _ => true) ⟨4, some [0x45, 0, 0, END], none, 0, none, none⟩]).getD openLine

theorem first_reached : Reached (slipDriver noVj) plainOpt firstLine := by
  have done : (run (slipDriver noVj) openLine [.work (fun _ => true) ⟨4, none, none, 0, none, none⟩,
      .work (fun _ => true) ⟨4, some [0x45, 0, 0, END], none, 0, none, none⟩]).isSome = true := by decide +kernel
  obtain ⟨w, result⟩ := Option.isSome_iff_exists.mp done
  have same : firstLine = w := by
    rw [firstLine, result]
    rfl
  rw [same]
  exact reached_run (slipDriver noVj) plainOpt _ openLine w
    (.opened 15 0 _ _ List.length_replicate List.length_replicate) result

end Slip

end MagxNet.Sld
