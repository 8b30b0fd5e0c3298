/-
**The lines of a text are the lines of its octets.**

A newline is one octet, and no octet of another character is one. So a reader may look for newlines among
the octets and decode line by line.

* `decode_lines` — read back.
-/

import PiCrew.Library.Framing
import PiCrew.Library.Utf8

namespace Utf8

open JsonText

theorem encode_append {front : Text} (paired : Paired front) (rest : Text) :
    encode (front ++ rest) = encode front ++ encode rest := by
  induction paired with
  | nil => rfl
  | @alone unit front none _ ih =>
    rw [List.cons_append, encode_alone none, encode_alone none, ih, List.append_assoc]
  | @pair unit next front lead trail _ ih =>
    rw [List.cons_append, List.cons_append, encode_pair lead trail, encode_pair lead trail, ih,
      List.append_assoc]

theorem paired_split {text : Text} (paired : Paired text) {unit : UInt16}
    (single : (isLead unit || isTrail unit) = false) :
    ∀ {front rest : Text}, text = front ++ unit :: rest → Paired front ∧ Paired rest := by
  obtain ⟨lead', trail'⟩ := Bool.or_eq_false_iff.mp single
  induction paired with
  | nil =>
    intro front rest split
    exact absurd split (by simp)
  | @alone first others none paired ih =>
    intro front rest split
    cases front with
    | nil =>
      obtain ⟨-, rfl⟩ := List.cons.inj split
      exact ⟨.nil, paired⟩
    | cons other front =>
      obtain ⟨rfl, more⟩ := List.cons.inj split
      exact ⟨.alone none (ih more).1, (ih more).2⟩
  | @pair first second others lead trail paired ih =>
    intro front rest split
    rcases front with _ | ⟨other, _ | ⟨another, front⟩⟩
    · obtain ⟨rfl, -⟩ := List.cons.inj split
      rw [lead] at lead'
      cases lead'
    · obtain ⟨-, more⟩ := List.cons.inj split
      obtain ⟨rfl, -⟩ := List.cons.inj more
      rw [trail] at trail'
      cases trail'
    · obtain ⟨rfl, more⟩ := List.cons.inj split
      obtain ⟨rfl, back⟩ := List.cons.inj more
      exact ⟨.pair lead trail (ih back).1, (ih back).2⟩

def newlineUnit : UInt16 := 0x0A

def newlineOctet : UInt8 := 0x0A

theorem encode_newline (rest : Text) : encode (newlineUnit :: rest) = newlineOctet :: encode rest := by
  rw [encode_alone (by decide)]
  rfl

theorem newlineOctet_not_mem {line : Text} (paired : Paired line) (apart : newlineUnit ∉ line) :
    newlineOctet ∉ encode line := by
  intro member
  obtain ⟨unit, inside, same⟩ := low_of_mem_encode paired member (by decide)
  have newline : unit = newlineUnit := UInt16.toNat_inj.mp same
  rw [newline] at inside
  exact apart inside

theorem paired_written {lines : List Text} {tail : Text}
    (paired : Paired (Framing.written newlineUnit lines ++ tail)) :
    (∀ line ∈ lines, Paired line) ∧ Paired tail := by
  induction lines with
  | nil => exact ⟨List.forall_mem_nil _, paired⟩
  | cons line lines ih =>
    rw [Framing.written_cons, List.append_assoc, List.cons_append] at paired
    obtain ⟨here, others⟩ := paired_split paired (by decide) rfl
    exact ⟨List.forall_mem_cons.mpr ⟨here, (ih others).1⟩, (ih others).2⟩

theorem encode_written {lines : List Text} (paired : ∀ line ∈ lines, Paired line) (tail : Text) :
    encode (Framing.written newlineUnit lines ++ tail)
      = Framing.written newlineOctet (lines.map encode) ++ encode tail := by
  induction lines with
  | nil => rfl
  | cons line lines ih =>
    obtain ⟨here, others⟩ := List.forall_mem_cons.mp paired
    rw [Framing.written_cons, List.append_assoc, List.cons_append, encode_append here,
      encode_newline, ih others, List.map_cons, Framing.written_cons, List.append_assoc,
      List.cons_append]

theorem lines_encode {text : Text} (paired : Paired text) :
    Framing.lines newlineOctet (encode text) = (Framing.lines newlineUnit text).map encode := by
  have whole := Framing.written_lines newlineUnit text
  have parts := paired
  rw [← whole] at parts
  obtain ⟨lines, tail⟩ := paired_written parts
  have apart : ∀ line ∈ (Framing.lines newlineUnit text).map encode, newlineOctet ∉ line := by
    intro line member
    obtain ⟨source, inside, rfl⟩ := List.mem_map.mp member
    exact newlineOctet_not_mem (lines source inside) (Framing.not_mem_lines text source inside)
  conv_lhs => rw [← whole, encode_written lines, Framing.lines_written apart]
  rw [Framing.lines_of_not_mem (newlineOctet_not_mem tail (Framing.not_mem_tail text)), List.append_nil]

/-- **The lines of a text**, decoded one by one. -/
theorem decode_lines {text : Text} (paired : Paired text) :
    (Framing.lines newlineOctet (encode text)).map decode = Framing.lines newlineUnit text := by
  have parts := paired
  rw [← Framing.written_lines newlineUnit text] at parts
  rw [lines_encode paired, List.map_map]
  refine (List.map_congr_left fun line member => ?_).trans (List.map_id _)
  exact decode_encode ((paired_written parts).1 line member)

end Utf8
