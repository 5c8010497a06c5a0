import Wise1511.BerTest

/-!
# Burst packets survive the trip

A burst packet carries its number twice: as two raw bytes, and as decimal text that ends in a NUL.
Only the first `pktlen` bytes are sent, so whether the receiver finds the terminator depends on the
width of the number; where it does not, the receiver reads on into bytes of some earlier packet.

With sixteen bytes for everything but the digits the terminator is inside. Then the receiver
recovers the number and the text, whatever both buffers held before.

## Main results

* `currPktId_received`, `holdsString_received` — number and text
* `burstPacket_roundTrip` — both, with the bounds, and packets of different numbers are different
-/

namespace Wise1511

/-- The first `pktlen` bytes of a packet as they reach the receiver's buffer. -/
def receivedPacket (rxBuffer txBuffer : CArray) (cc : UInt32) (pktlen : ℕ) : CArray :=
  CArray.overlay rxBuffer 0 ((fillPacket txBuffer cc).slice 0 pktlen)

/-- Parentheses, digits and name: twelve characters and the digits. -/
theorem length_burstText (cc : UInt32) : (burstText cc).length = 12 + (fmtD cc).length := by
  have hname : advantech.length = 11 := rfl
  simp only [burstText, List.length_cons, List.length_append, hname]
  omega

theorem burstText_ne_zero (cc : UInt32) : ∀ b ∈ burstText cc, b ≠ 0 := by
  intro b hb
  rw [burstText] at hb
  rcases List.mem_cons.mp hb with rfl | hb
  · decide
  rcases List.mem_append.mp hb with hb | hb
  · exact fmtD_ne_zero cc b hb
  · have hname : ∀ b ∈ advantech, b ≠ 0 := by decide +kernel
    exact hname b hb

/-! ### The sender's buffer -/

/-- Text and terminator end below index 32, for every burst number there is. -/
theorem sprintf_in_bounds (cc : UInt32) : 3 + (burstText cc).length < bufferSize := by
  have := length_fmtD_le cc
  rw [length_burstText, bufferSize]
  omega

/-- Nothing from index 32 on is written. -/
theorem fillPacket_of_ge (txBuffer : CArray) (cc : UInt32) {i : ℕ} (h : bufferSize ≤ i) :
    fillPacket txBuffer cc i = txBuffer i := by
  have hend := sprintf_in_bounds cc
  have hsize : bufferSize = 32 := rfl
  rw [fillPacket, CArray.sprintf_of_gt _ _ (by omega), Function.update_of_ne (by omega),
    Function.update_of_ne (by omega), Function.update_of_ne (by omega)]

/-- The number is in bytes 1 and 2. -/
theorem fillPacket_number (txBuffer : CArray) (cc : UInt32) :
    fillPacket txBuffer cc 1 = ((cc >>> 8) &&& 0xFF).toUInt8 ∧
      fillPacket txBuffer cc 2 = (cc &&& 0xFF).toUInt8 := by
  constructor
  · rw [fillPacket, CArray.sprintf_of_lt _ _ (by decide)]
    rfl
  · rw [fillPacket, CArray.sprintf_of_lt _ _ (by decide)]
    rfl

/-- The text is a string from index 3 on. -/
theorem fillPacket_holdsString (txBuffer : CArray) (cc : UInt32) :
    (CArray.shift (fillPacket txBuffer cc) 3).HoldsString (burstText cc) :=
  CArray.holdsString_sprintf _ 3 (burstText_ne_zero cc)

/-! ### The receiver's buffer -/

theorem receivedPacket_of_lt {rxBuffer txBuffer : CArray} {cc : UInt32} {pktlen i : ℕ}
    (h : i < pktlen) : receivedPacket rxBuffer txBuffer cc pktlen i = fillPacket txBuffer cc i := by
  have hi : i < ((fillPacket txBuffer cc).slice 0 pktlen).length := by
    rwa [CArray.length_slice]
  rw [receivedPacket, CArray.overlay_zero hi, CArray.getElem_slice, Nat.zero_add]

/-- Two raw bytes give a sixteen-bit number back. -/
theorem number_of_bytes : ∀ cc : UInt32, cc.toNat < 65536 →
    ((cc >>> 8) &&& 0xFF).toUInt8.toUInt32 <<< 8 + (cc &&& 0xFF).toUInt8.toUInt32 = cc := by
  intro cc h
  have hmask : ∀ n : ℕ, n &&& 255 = n % 256 := by
    intro n
    exact Nat.and_two_pow_sub_one_eq_mod n 8
  apply UInt32.toNat_inj.mp
  simp [hmask, Nat.shiftLeft_eq, Nat.shiftRight_eq_div_pow]
  omega

theorem currPktId_received (rxBuffer txBuffer : CArray) {cc : UInt32} {pktlen : ℕ}
    (hcc : cc.toNat < 65536) (hlen : 3 ≤ pktlen) :
    currPktId (receivedPacket rxBuffer txBuffer cc pktlen) = cc := by
  obtain ⟨hhi, hlo⟩ := fillPacket_number txBuffer cc
  rw [currPktId, receivedPacket_of_lt (by omega), receivedPacket_of_lt (by omega), hhi, hlo]
  exact number_of_bytes cc hcc

theorem holdsString_received (content rxBuffer txBuffer : CArray) {cc : UInt32} {pktlen : ℕ}
    (hlen : 3 + (burstText cc).length < pktlen) :
    (copyContent content (receivedPacket rxBuffer txBuffer cc pktlen)).HoldsString
      (burstText cc) := by
  have hbound := sprintf_in_bounds cc
  rw [copyContent, CArray.holdsString_strncpy_iff (by omega)]
  refine (fillPacket_holdsString txBuffer cc).congr ?_
  intro i hi
  exact receivedPacket_of_lt (show 3 + i < pktlen by omega)

/-- **Decoding undoes encoding.** Whatever the two buffers held, the receiver computes the number
that was sent and copies the text that was sent; the sender's `sprintf` stays inside its buffer; and
packets of two different numbers differ. -/
theorem burstPacket_roundTrip {pktlen pktnum : ℕ} (hlen : pktlen ≤ 32) (hnum : pktnum ≤ 65536)
    (hfits : 16 + (decimal (pktnum - 1)).length ≤ pktlen) (cc : UInt32) (hcc : cc.toNat < pktnum)
    (txBuffer rxBuffer content : CArray) :
    currPktId (receivedPacket rxBuffer txBuffer cc pktlen) = cc ∧
      (copyContent content (receivedPacket rxBuffer txBuffer cc pktlen)).HoldsString
        (byteOf '(' :: (decimal cc.toNat ++ advantech)) ∧
      (3 + (burstText cc).length < bufferSize ∧
        ∀ i, bufferSize ≤ i → fillPacket txBuffer cc i = txBuffer i) ∧
      ∀ cc' txBuffer', cc'.toNat < pktnum → cc' ≠ cc →
        (fillPacket txBuffer' cc').slice 0 pktlen ≠ (fillPacket txBuffer cc).slice 0 pktlen := by
  have hshort : ∀ c : UInt32, c.toNat < pktnum → fmtD c = decimal c.toNat := by
    intro c hc
    exact fmtD_of_lt (by omega)
  have htext : 3 + (burstText cc).length < pktlen := by
    have hle : (decimal cc.toNat).length ≤ (decimal (pktnum - 1)).length :=
      length_decimal_le (by omega)
    rw [length_burstText, hshort cc hcc]
    omega
  refine ⟨currPktId_received _ _ (by omega) (by omega), ?_,
    ⟨sprintf_in_bounds cc, fun i => fillPacket_of_ge txBuffer cc⟩, ?_⟩
  · rw [← hshort cc hcc]
    exact holdsString_received content rxBuffer txBuffer htext
  · intro cc' txBuffer' hcc' hne heq
    -- equal packets decode to equal numbers
    apply hne
    calc cc' = currPktId (receivedPacket rxBuffer txBuffer' cc' pktlen) :=
          (currPktId_received _ _ (by omega) (by omega)).symm
      _ = currPktId (receivedPacket rxBuffer txBuffer cc pktlen) := by
          rw [receivedPacket, heq, receivedPacket]
      _ = cc := currPktId_received _ _ (by omega) (by omega)

/-- The factory test's thousand packets of twenty bytes, the last of them. -/
theorem burstPacket_roundTrip_last :
    currPktId (receivedPacket (fun _ => 0xFF) (fun _ => 0xFF) 999 20) = 999 :=
  (@burstPacket_roundTrip 20 1000 (by decide) (by decide) (by decide) 999 (by decide)
    (fun _ => 0xFF) (fun _ => 0xFF) (fun _ => 0xFF)).1

end Wise1511
