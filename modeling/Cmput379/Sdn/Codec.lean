import Cmput379.Sdn.Packet

/-!
# The packet codec

`codec`: `parsePacketString` undoes the encoding of every type name without a colon
and every list of `int`s, and so that of the five packets; different packets have
different texts.
-/

namespace Cmput379.Sdn

open Cmput379.Lib

/-- A type name and the fields sent with it. -/
structure RawPacket where
  type : Text
  msg : List ℤ
  noColon : ':' ∉ type
  inRange : ∀ x ∈ msg, IsInt x

/-- The name, a colon, and the renderings of the fields joined by commas. -/
def RawPacket.text (p : RawPacket) : Text := p.type ++ ':' :: joinInts p.msg

theorem RawPacket.parse_text (p : RawPacket) : parsePacketString p.text = (p.type, p.msg) := by
  have hparse := parsePacketString_append p.noColon p.inRange Stops.nil
  rwa [List.append_nil] at hparse

theorem RawPacket.text_injective : Function.Injective RawPacket.text := by
  intro p q htext
  have hparse := p.parse_text
  rw [htext, q.parse_text] at hparse
  obtain ⟨htype, hmsg⟩ := Prod.mk.inj hparse
  cases p
  cases q
  simp only at htype hmsg
  subst htype hmsg
  rfl

/-- What a send function writes. -/
def WirePacket.raw (p : WirePacket) : RawPacket where
  type := p.packet.type
  msg := p.packet.msg
  noColon := p.packet.colon_not_mem_type
  inRange := p.inRange

theorem WirePacket.text_raw (p : WirePacket) : p.packet.text = p.raw.text := p.packet.text_eq

/-- Type and fields determine a packet. -/
theorem Packet.eq_of_type_msg {p q : Packet} (htype : p.type = q.type) (hmsg : p.msg = q.msg) :
    p = q := by
  cases p <;> cases q <;> simp_all [Packet.type, Packet.msg]

theorem WirePacket.text_injective : Function.Injective fun p : WirePacket => p.packet.text := by
  intro p q htext
  simp only [WirePacket.text_raw] at htext
  have hraw := RawPacket.text_injective htext
  have hpacket : p.packet = q.packet :=
    Packet.eq_of_type_msg (congrArg RawPacket.type hraw) (congrArg RawPacket.msg hraw)
  cases p
  cases q
  simp only at hpacket
  subst hpacket
  rfl

/-- Parsing undoes encoding, for every type name without a colon and every list of
    32-bit integers, the five packets among them; and the encoding is injective. -/
theorem codec :
    (∀ p : RawPacket, parsePacketString p.text = (p.type, p.msg)) ∧
      Function.Injective RawPacket.text ∧
      (∀ p : WirePacket, p.packet.text = p.raw.text ∧
        parsePacketString p.packet.text = (p.packet.type, p.packet.msg)) ∧
      Function.Injective fun p : WirePacket => p.packet.text := by
  refine ⟨RawPacket.parse_text, RawPacket.text_injective, fun p => ⟨p.text_raw, ?_⟩,
    WirePacket.text_injective⟩
  rw [p.text_raw]
  exact p.raw.parse_text

/-- The extremes of `int`, and a name that is none of the five. -/
example : parsePacketString "X-1:-2147483648,2147483647".toList =
    ("X-1".toList, [-2147483648, 2147483647]) := by decide

end Cmput379.Sdn
