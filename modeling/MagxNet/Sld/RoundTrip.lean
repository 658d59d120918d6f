import MagxNet.Sld.Frames

set_option autoImplicit false

namespace MagxNet.Sld

open Bytes (Byte)
open Delimited (joined)

variable {τ π δ : Type}

-- What one driver puts on the line for a byte, the other reads back as that byte.
structure Clear (d : Driver τ π δ) (sopt : τ) (e : Driver τ π δ) (ropt : τ) : Prop where
  delim : e.delim = d.delim
  free : ∀ c, d.delim ∉ d.stuff sopt c
  back : ∀ c, unstuff (e.data ropt) false (d.stuff sopt c) = (false, [c])
  empty : e.rejects false 0 = true

-- The text of a packet, and what a receiver makes of it.
def textOf (d : Driver τ π δ) (sopt : τ) (packet : π) : List Byte := stuffed d sopt (d.build sopt packet).2

def receipt (e : Driver τ π δ) (ropt : τ) (frame : List Byte) : Option δ :=
  if e.limit ropt ≤ frame.length ∨ e.rejects false frame.length then none else (e.close ropt frame).2

-- Compression at the receiver has no part in what becomes of the frame.
def Settled (e : Driver τ π δ) (kin : τ → τ → Prop) (ropt : τ) (frame : List Byte) : Prop :=
  ∀ t, kin ropt t → (e.close t frame).2 = (e.close ropt frame).2

theorem streamed_joined (d : Driver τ π δ) (sopt : τ) (packets : List π) :
    streamed d sopt packets = joined d.delim (packets.flatMap fun packet => [[], textOf d sopt packet]) := by
  induction packets with
  | nil => rfl
  | cons packet rest ih =>
      rw [List.flatMap_cons, Delimited.joined_append, ← ih]
      simp [streamed, joined, textOf]

section

variable (d : Driver τ π δ) (sopt : τ) (e : Driver τ π δ) (ropt : τ) (clear : Clear d sopt e ropt)
include clear

theorem stuffed_free (frame : List Byte) : d.delim ∉ stuffed d sopt frame := by
  intro member
  obtain ⟨text, here, inside⟩ := List.mem_flatten.mp member
  obtain ⟨c, -, rfl⟩ := List.mem_map.mp here
  exact clear.free c inside

theorem stuffed_back (frame : List Byte) : unstuff (e.data ropt) false (stuffed d sopt frame) = (false, frame) := by
  induction frame with
  | nil => rfl
  | cons c rest ih =>
      have split' : stuffed d sopt (c :: rest) = d.stuff sopt c ++ stuffed d sopt rest := by
        simp [stuffed]
      rw [split', unstuff_append, clear.back c, ih]
      rfl

theorem stuffed_dealt (kin : τ → τ → Prop) (frame : List Byte) (out : Option δ) (settled : Settled e kin ropt frame)
    (dealt : Dealt e kin ropt (stuffed d sopt frame) out) : out = receipt e ropt frame := by
  obtain ⟨t, same, rfl⟩ := dealt
  have back := stuffed_back d sopt e ropt clear frame
  unfold verdict receipt
  rw [back]
  dsimp only
  split
  · rfl
  · exact settled t same

theorem empty_dealt (kin : τ → τ → Prop) (out : Option δ) (dealt : Dealt e kin ropt [] out) : out = none := by
  obtain ⟨t, -, rfl⟩ := dealt
  have none' : verdict e ropt [] = none := if_pos (Or.inr clear.empty)
  rw [none']
  rfl

-- The outcomes of the texts of packets, as far as the texts go.
theorem outcomes (kin : τ → τ → Prop) (packets : List π) (texts : List (List Byte)) (outs : List (Option δ))
    (settled : ∀ packet ∈ packets, Settled e kin ropt (d.build sopt packet).2)
    (start : texts <+: packets.flatMap fun packet => [[], textOf d sopt packet])
    (answers : List.Forall₂ (Dealt e kin ropt) texts outs) :
    outs.reduceOption <+: packets.filterMap (fun packet => receipt e ropt (d.build sopt packet).2)
      ∧ (texts = packets.flatMap (fun packet => [[], textOf d sopt packet]) →
        outs.reduceOption = packets.filterMap fun packet => receipt e ropt (d.build sopt packet).2) := by
  induction packets generalizing texts outs with
  | nil =>
      obtain rfl := List.prefix_nil.mp start
      cases answers
      exact ⟨List.prefix_rfl, fun _ => rfl⟩
  | cons packet rest ih =>
      rw [List.flatMap_cons, List.cons_append, List.singleton_append] at start ⊢
      cases answers with
      | nil => exact ⟨List.nil_prefix, fun none' => by cases none'⟩
      | @cons text0 out0 texts1 outs1 dealt0 answers1 =>
          obtain ⟨rfl, start1⟩ := List.cons_prefix_cons.mp start
          obtain rfl := empty_dealt d sopt e ropt clear kin out0 dealt0
          rw [List.reduceOption_cons_of_none]
          cases answers1 with
          | nil => exact ⟨List.nil_prefix, fun none' => by simp at none'⟩
          | @cons text1 out1 texts2 outs2 dealt1 answers2 =>
              obtain ⟨rfl, start2⟩ := List.cons_prefix_cons.mp start1
              obtain rfl := stuffed_dealt d sopt e ropt clear kin _ out1 (settled packet List.mem_cons_self) dealt1
              obtain ⟨before, all⟩ := ih texts2 outs2 (fun p member => settled p (List.mem_cons_of_mem _ member)) start2 answers2
              rw [List.filterMap_cons]
              cases receipt e ropt (d.build sopt packet).2 with
              | none =>
                  rw [List.reduceOption_cons_of_none]
                  refine ⟨before, fun same => all ?_⟩
                  exact (List.cons.inj (List.cons.inj same).2).2
              | some out =>
                  rw [List.reduceOption_cons_of_some]
                  refine ⟨List.cons_prefix_cons.mpr ⟨rfl, before⟩, fun same => congrArg (out :: ·) (all ?_)⟩
                  exact (List.cons.inj (List.cons.inj same).2).2

theorem texts_free (packets : List π) :
    ∀ text ∈ packets.flatMap (fun packet => [[], textOf d sopt packet]), d.delim ∉ text := by
  intro text member
  obtain ⟨packet, -, here⟩ := List.mem_flatMap.mp member
  rcases List.mem_cons.mp here with rfl | here
  · exact List.not_mem_nil
  · obtain rfl := List.mem_singleton.mp here
    exact stuffed_free d sopt e ropt clear _

-- What a receiver delivers of the bytes of a row of packets, some of which may be still to come.
theorem received_packets (kin : τ → τ → Prop) (packets : List π) (seen : List Byte) (a : Rx τ) (delivered : List δ)
    (texts : List (List Byte)) (rest : List Byte) (outs : List (Option δ))
    (framed : Framed e kin ropt seen a delivered texts rest outs)
    (settled : ∀ packet ∈ packets, Settled e kin ropt (d.build sopt packet).2) :
    (seen <+: streamed d sopt packets →
        delivered <+: packets.filterMap fun packet => receipt e ropt (d.build sopt packet).2)
      ∧ (seen = streamed d sopt packets →
        delivered = packets.filterMap fun packet => receipt e ropt (d.build sopt packet).2) := by
  have row := framed.row
  have whole := framed.whole
  have partial' := framed.partial'
  have all := texts_free d sopt e ropt clear packets
  rw [clear.delim] at row whole partial'
  constructor
  · intro start
    rw [row, streamed_joined] at start
    have first := Delimited.joined_prefix d.delim texts _ rest whole all start
    rw [framed.result]
    exact (outcomes d sopt e ropt clear kin packets texts outs settled first framed.answers).1
  · intro same
    rw [row, streamed_joined, ← List.append_nil (joined d.delim (packets.flatMap _))] at same
    obtain ⟨every, -⟩ := Delimited.joined_unique d.delim texts _ rest [] whole all partial' List.not_mem_nil same
    have first : texts <+: packets.flatMap fun packet => [[], textOf d sopt packet] := ⟨[], by rw [List.append_nil, every]⟩
    rw [framed.result]
    exact (outcomes d sopt e ropt clear kin packets texts outs settled first framed.answers).2 every

end

end MagxNet.Sld
