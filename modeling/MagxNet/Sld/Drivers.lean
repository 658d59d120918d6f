import MagxNet.Sld.Ppp
import MagxNet.Sld.Reception

set_option autoImplicit false

namespace MagxNet.Sld

open Bytes (Byte)

variable {σ : Type}

namespace Slip

-- Compression is all that a packet changes.
theorem uncompress_mtu (vj : Vj σ) (t : SlipOpt σ) (b : List Byte) : (uncompress vj t b).1.mtu = t.mtu := by
  unfold uncompress
  split
  · rfl
  · split
    · split <;> rfl
    · split
      · split
        · rfl
        · split
          · cases result : slcUncompress vj t TYPE_UNCOMPRESSED_TCP b with
            | mk t1 out =>
                obtain ⟨rfl, -⟩ := Prod.mk.inj result
                cases out <;> rfl
          · rfl
      · rfl

theorem build_mtu (vj : Vj σ) (t : SlipOpt σ) (b : List Byte) : (slipBuild vj t b).1.mtu = t.mtu := by
  unfold slipBuild
  split <;> rfl

theorem slip_tame (vj : Vj σ) : Tame (slipDriver vj) := by
  refine ⟨?_, ?_, ?_⟩
  · intro t bytes
    change ((uncompress vj t bytes).1.mtu + 1).toInt = (t.mtu + 1).toInt
    rw [uncompress_mtu]
  · intro t packet
    change ((slipBuild vj t packet).1.mtu + 1).toInt = (t.mtu + 1).toInt
    rw [build_mtu]
  · intro t c
    change (slipStuff c).length ≤ 2
    unfold slipStuff
    split
    · exact Nat.le_refl 2
    · split
      · exact Nat.le_refl 2
      · exact Nat.le_succ 1

def SameMtu (t t' : SlipOpt σ) : Prop := t'.mtu = t.mtu

theorem slip_steady (vj : Vj σ) : Steady (slipDriver vj) SameMtu := by
  refine ⟨fun _ => rfl, fun _ _ _ first second => second.trans first, uncompress_mtu vj, build_mtu vj, fun _ _ _ => rfl, ?_⟩
  intro t t' same
  change (t'.mtu + 1).toInt = (t.mtu + 1).toInt
  rw [same]

end Slip

namespace Ppp

-- What a frame leaves alone of the options: all that the character maps and the user decide.
structure SameOpt (t t' : PppOpt σ) : Prop where
  protComp : t'.protComp = t.protComp
  addrComp : t'.addrComp = t.addrComp
  ipDown : t'.ipDown = t.ipDown
  xmap : t'.xmap = t.xmap
  rmap : t'.rmap = t.rmap
  mru : t'.mru = t.mru
  up : t'.up = t.up

theorem same_opt_refl (t : PppOpt σ) : SameOpt t t := ⟨rfl, rfl, rfl, rfl, rfl, rfl, rfl⟩

theorem same_opt_trans (t t1 t2 : PppOpt σ) (first : SameOpt t t1) (second : SameOpt t1 t2) : SameOpt t t2 :=
  ⟨second.protComp.trans first.protComp, second.addrComp.trans first.addrComp, second.ipDown.trans first.ipDown,
    second.xmap.trans first.xmap, second.rmap.trans first.rmap, second.mru.trans first.mru, second.up.trans first.up⟩

theorem uncompress_same (vj : Vj σ) (t : PppOpt σ) (p : Packet) : SameOpt t (uncompress vj t p).1 := by
  unfold uncompress
  dsimp only
  split
  · split
    · exact ⟨rfl, rfl, rfl, rfl, rfl, rfl, rfl⟩
    · exact same_opt_refl t
  · split
    · split
      · exact ⟨rfl, rfl, rfl, rfl, rfl, rfl, rfl⟩
      · split
        · cases result : slcUncompress vj t Slip.TYPE_UNCOMPRESSED_TCP p.info with
          | mk t1 out =>
              obtain ⟨rfl, -⟩ := Prod.mk.inj result
              cases out <;> exact ⟨rfl, rfl, rfl, rfl, rfl, rfl, rfl⟩
        · exact same_opt_refl t
    · exact same_opt_refl t

theorem recv_frame_same (vj : Vj σ) (t : PppOpt σ) (bytes : List Byte) : SameOpt t (pppRecvFrame vj t bytes).1 := by
  unfold pppRecvFrame
  split
  · exact same_opt_refl t
  · dsimp only
    split
    · exact same_opt_refl t
    · cases result : uncompress vj t { stripProto (stripAddr bytes) with
        info := (stripProto (stripAddr bytes)).info.take ((stripProto (stripAddr bytes)).info.length - 2) } with
      | mk t1 out =>
          have same := uncompress_same vj t { stripProto (stripAddr bytes) with
            info := (stripProto (stripAddr bytes)).info.take ((stripProto (stripAddr bytes)).info.length - 2) }
          rw [result] at same
          cases out <;> exact same

theorem build_frame_same (vj : Vj σ) (t : PppOpt σ) (p : Packet) : SameOpt t (pppBuildFrame vj t p).1 := by
  unfold pppBuildFrame compressed
  split
  · rename_i t1 p1 result
    split at result
    · obtain ⟨rfl, -⟩ := Prod.mk.inj result
      exact ⟨rfl, rfl, rfl, rfl, rfl, rfl, rfl⟩
    · obtain ⟨rfl, -⟩ := Prod.mk.inj result
      exact same_opt_refl t

theorem same_limit (t t' : PppOpt σ) (same : SameOpt t t') : pppLimit t' = pppLimit t := by
  unfold pppLimit
  rw [same.mru]

theorem ppp_tame (vj : Vj σ) : Tame (pppDriver vj) := by
  refine ⟨fun t bytes => same_limit t _ (recv_frame_same vj t bytes), fun t packet => same_limit t _ (build_frame_same vj t packet),
    ?_⟩
  intro t c
  change (pppStuff t c).length ≤ 2
  unfold pppStuff
  split
  · exact Nat.le_refl 2
  · exact Nat.le_succ 1

theorem ppp_steady (vj : Vj σ) : Steady (pppDriver vj) SameOpt := by
  refine ⟨same_opt_refl, same_opt_trans, recv_frame_same vj, build_frame_same vj, ?_, same_limit⟩
  intro t t' same
  change pppData t' = pppData t
  funext esc c
  unfold pppData
  rw [same.rmap]

end Ppp

end MagxNet.Sld
