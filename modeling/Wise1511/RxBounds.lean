import Wise1511.RxBer

/-!
# What the receiver reads and prints of a packet

After a good packet `rx_ber_single` copies a string from byte 3 of `txBuffer` into `content`, up to
`sizeof(content)` bytes. Both arrays have 32, so the limit lets the copy run three bytes past the
end of its source, and what it then leaves in `content` need not end anywhere.

The sender chooses the bytes, and behind the packet stand those of earlier ones, or whatever the
stack held. The handling stays inside the arrays exactly when one of the bytes 3 to 31 is NUL.
The project's own sender always puts one there.

## Main results

* `staysInside_iff` — one iteration with a good packet
-/

namespace Wise1511

variable (twoWay : Bool) (pktlen : UInt16)

/-- In this iteration every access to `txBuffer` and `content` on behalf of the packet is inside the
array: what `radio_read` stores, what `strncpy` reads, and the string that is printed. -/
def StaysInside (s : RxVars × SpiBus Chip Phase) (e : RxEvent Chip) : Prop :=
  let txBuffer := (readOutcome (e.received s.2.dev) s.1.txBuffer (UInt16.ofNat bufferSize)).1.buf
  (∀ i, bufferSize ≤ i → txBuffer i = s.1.txBuffer i) ∧
    (∀ i, CArray.strncpyReads (txBuffer.shift 3) bufferSize i → 3 + i < bufferSize) ∧
    ∃ i < bufferSize, ((rxBer twoWay pktlen).step s e).2.content i = 0

theorem length_le_of_delivered {c : Chip} {packet : List UInt8} (h : delivered c = some packet) :
    packet.length ≤ bufferSize := by
  rw [delivered] at h
  split_ifs at h with hlen
  obtain rfl := Option.some.inj h
  have hle := hlen.2
  rw [UInt16.le_iff_toNat_le, UInt8.toNat_toUInt16] at hle
  simpa [Chip.popRx, bufferSize] using hle

/-- After a good packet the line shows a copy of what follows byte 3. -/
theorem content_of_delivered (s : RxVars × SpiBus Chip Phase) (e : RxEvent Chip)
    {packet : List UInt8} (hdel : delivered (e.received s.2.dev) = some packet)
    (hcrc : GoodCrc (e.received s.2.dev)) :
    ((rxBer twoWay pktlen).step s e).2.content
      = copyContent s.1.content (s.1.txBuffer.overlay 0 packet) := by
  obtain ⟨hbuf, hstatus⟩ := readOutcome_of_delivered hdel s.1.txBuffer
  obtain ⟨hline, hvars⟩ := rxIter_line twoWay pktlen s e
  rw [if_pos (hstatus.mpr hcrc)] at hvars
  rw [hline, ← hbuf]
  exact hvars.1

/-- **Handling a packet stays inside the arrays exactly when a NUL follows byte 2.** It may be the
packet's own or one that stood behind it. -/
theorem staysInside_iff (s : RxVars × SpiBus Chip Phase) (e : RxEvent Chip) {packet : List UInt8}
    (hdel : delivered (e.received s.2.dev) = some packet) (hcrc : GoodCrc (e.received s.2.dev)) :
    StaysInside twoWay pktlen s e ↔
      ∃ j < bufferSize, 3 ≤ j ∧ s.1.txBuffer.overlay 0 packet j = 0 := by
  have hbuf := (readOutcome_of_delivered hdel s.1.txBuffer).1
  have hreads : (∀ i, CArray.strncpyReads ((s.1.txBuffer.overlay 0 packet).shift 3) bufferSize i →
      3 + i < bufferSize) ↔ ∃ j < bufferSize, 3 ≤ j ∧ s.1.txBuffer.overlay 0 packet j = 0 := by
    have hlimit : ∀ i, 3 + i < bufferSize ↔ i < 29 := by
      intro i
      rw [bufferSize]
      omega
    simp only [hlimit]
    rw [CArray.strncpyReads_lt_iff (by decide)]
    constructor
    · rintro ⟨i, hi, hzero⟩
      exact ⟨3 + i, (hlimit i).mpr hi, Nat.le_add_right 3 i, hzero⟩
    · rintro ⟨j, hj, h3, hzero⟩
      obtain ⟨i, rfl⟩ := Nat.exists_eq_add_of_le h3
      exact ⟨i, (hlimit i).mp hj, hzero⟩
  simp only [StaysInside, hbuf, content_of_delivered twoWay pktlen s e hdel hcrc]
  constructor
  · rintro ⟨-, h, -⟩
    exact hreads.mp h
  · intro h
    refine ⟨?_, hreads.mpr h, ?_⟩
    · intro i hi
      exact CArray.overlay_of_ge _ _ (by have := length_le_of_delivered hdel; omega)
    · obtain ⟨j, hj, h3, hzero⟩ := h
      obtain ⟨i, rfl⟩ := Nat.exists_eq_add_of_le h3
      exact ⟨i, by omega, CArray.strncpy_eq_zero (by omega) hzero⟩

/-- A packet is received with good CRC. -/
def goodPacket (packet : List UInt8) : RxEvent Chip where
  received c := c.receive packet fun _ => 0x80
  replied := id

/-- The variables before a packet, with one byte all over both arrays. -/
def varsOf (b : UInt8) : RxVars := ⟨fun _ => b, fun _ => b, 0, 0, 0⟩

/-- A packet of the project's sender, over arrays with no NUL. -/
theorem staysInside_fillPacket :
    delivered ((goodPacket ((fillPacket randData 7).slice 0 20)).received resetBus.dev)
        = some ((fillPacket randData 7).slice 0 20) ∧
      GoodCrc ((goodPacket ((fillPacket randData 7).slice 0 20)).received resetBus.dev) ∧
      StaysInside false 20 (varsOf 0xFF, resetBus)
        (goodPacket ((fillPacket randData 7).slice 0 20)) :=
  ⟨rfl, by decide, (staysInside_iff false 20 (varsOf 0xFF, resetBus) _ rfl (by decide)).mpr
    (by decide +kernel)⟩

/-- Twenty bytes of text over arrays with no NUL. -/
theorem not_staysInside_text :
    delivered ((goodPacket (List.replicate 20 0x41)).received resetBus.dev)
        = some (List.replicate 20 0x41) ∧
      GoodCrc ((goodPacket (List.replicate 20 0x41)).received resetBus.dev) ∧
      ¬ StaysInside false 20 (varsOf 0xFF, resetBus) (goodPacket (List.replicate 20 0x41)) := by
  refine ⟨rfl, by decide, ?_⟩
  rintro ⟨-, hreads, -⟩
  have hnone : ∀ j < 29, (((varsOf 0xFF).txBuffer.overlay 0 (List.replicate 20 0x41)).shift 3) j
      ≠ 0 := by decide +kernel
  exact absurd (hreads 29 ⟨by decide, hnone⟩) (by decide)

end Wise1511
