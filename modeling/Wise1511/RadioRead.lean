import Wise1511.RadioDriver

/-!
# Receiving a sequence of packets

Packets arrive one by one, each appended to the RX FIFO, and each is followed by one call of
`radio_read`. The intended behaviour is that the `k`-th call handles the `k`-th packet and leaves
the FIFO empty for the next; `HandlesPacket` states it.

It fails. `radio_read` masks the fill level with `NUM_RXBYTES`, which is the *address* of the
register (`0x2FD7`), so bits 3 and 5 of the length are lost: an eight-byte packet reads as length
zero and is flushed, a twenty-eight-byte packet reads as twenty bytes and leaves eight behind for
the next call. The twenty bytes of the factory test have neither bit.

`LengthSurvives` is the exact condition on one call. What carries it over to a run is that a call
that handles its packet leaves the FIFO empty, so up to the first failure every call starts from
an empty FIFO.

## Main results

* `handlesStep_iff` — one call, from an empty FIFO
* `radioReader_handles_iff` — a whole run
-/

namespace Wise1511

/-- A packet, the registers once it is in, and the call that follows. -/
structure Arrival where
  packet : List UInt8
  pos : 1 ≤ packet.length
  le : packet.length ≤ 128
  regs : CArray
  buf : CArray
  bufLen : UInt16

/-- One arrival followed by one call of `radio_read`. -/
def radioReader : Mealy (SpiBus Chip Phase) Arrival Delivery where
  step b a :=
    let r := (radioRead (cc112x liveView) a.buf a.bufLen).run
      { b with dev := b.dev.receive a.packet a.regs }
    (r.2, r.1)

/-- The call handled exactly this packet: a packet that fits is in `buf`, and one that does not is
flushed. Either way nothing is left in the FIFO. -/
def HandlesPacket (a : Arrival) (d : Delivery) (left : List UInt8) : Prop :=
  if a.packet.length ≤ a.bufLen.toNat then
    d.buf.slice 0 a.packet.length = a.packet ∧ d.bufLen.toNat = a.packet.length ∧
      (∀ i, a.packet.length ≤ i → d.buf i = a.buf i) ∧
      (d.status ≠ 0 ↔ a.regs lqiVal.toNat &&& crcOk ≠ 0) ∧ left = []
  else
    d.buf = a.buf ∧ d.bufLen = 0 ∧ d.status = 0 ∧ left = []

/-- The call made in this state handled its packet. -/
def HandlesStep (b : SpiBus Chip Phase) (a : Arrival) : Prop :=
  HandlesPacket a (radioReader.step b a).2 (radioReader.step b a).1.dev.rxFifo

/-- The length has neither of the two bits the mask drops; or the packet exceeds the capacity, and
what is left of its length is zero or exceeds it too. -/
def LengthSurvives (a : Arrival) : Prop :=
  a.packet.length &&& 0x28 = 0 ∨
    (a.bufLen.toNat < a.packet.length ∧
      (a.packet.length &&& 0xD7 = 0 ∨ a.bufLen.toNat < a.packet.length &&& 0xD7))

instance (a : Arrival) : Decidable (LengthSurvives a) := inferInstanceAs (Decidable (_ ∨ _))

/-! ### The mask -/

theorem toNat_maskLen : ∀ n ≤ 128, (maskLen (UInt8.ofNat n)).toNat = n &&& 0xD7 := by
  decide +kernel

theorem mask_le : ∀ n ≤ 128, n &&& 0xD7 ≤ n := by decide +kernel

theorem mask_eq_iff : ∀ n ≤ 128, (n &&& 0xD7 = n ↔ n &&& 0x28 = 0) := by decide +kernel

/-! ### One call -/

/-- The call, in terms of `readOutcome`. -/
theorem radioReader_step (b : SpiBus Chip Phase) (a : Arrival) :
    ((radioReader.step b a).2, (radioReader.step b a).1.dev)
      = readOutcome (b.dev.receive a.packet a.regs) a.buf a.bufLen :=
  run_radioRead a.buf a.bufLen { b with dev := b.dev.receive a.packet a.regs }

theorem readOutcome_receive {c : Chip} (hc : c.rxFifo = []) (a : Arrival) :
    let m := a.packet.length &&& 0xD7
    let r := readOutcome (c.receive a.packet a.regs) a.buf a.bufLen
    if 0 < m ∧ m ≤ a.bufLen.toNat then
      r.1.buf = a.buf.overlay 0 (a.packet.take m) ∧ r.1.bufLen.toNat = m ∧
        r.1.status = a.regs lqiVal.toNat &&& crcOk ∧ r.2.rxFifo = a.packet.drop m
    else
      r.1.buf = a.buf ∧ r.1.bufLen = 0 ∧ r.1.status = 0 ∧ r.2.rxFifo = [] := by
  intro m r
  have hfifo : (c.receive a.packet a.regs).rxFifo = a.packet := by simp [Chip.receive, hc]
  have hm : (seenLen (c.receive a.packet a.regs)).toNat = m := by
    rw [seenLen, hfifo]
    exact toNat_maskLen _ a.le
  have hpos : 0 < seenLen (c.receive a.packet a.regs) ↔ 0 < m := by
    rw [UInt8.lt_iff_toNat_lt, hm]; rfl
  have hle : (seenLen (c.receive a.packet a.regs)).toUInt16 ≤ a.bufLen ↔ m ≤ a.bufLen.toNat := by
    rw [UInt16.le_iff_toNat_le, UInt8.toNat_toUInt16, hm]
  simp only [r, readOutcome, hpos, hle]
  split_ifs with h
  · have htake : (c.receive a.packet a.regs).popRx m = a.packet.take m := by
      rw [popRx_eq_take _ (by rw [hfifo]; exact mask_le _ a.le), hfifo]
    refine ⟨by rw [hm, htake], by rw [UInt8.toNat_toUInt16, hm], rfl, ?_⟩
    rw [hm]
    exact congrArg (List.drop m) hfifo
  · exact ⟨rfl, rfl, rfl, rfl⟩

/-- **One call, exactly.** From an empty FIFO, `radio_read` handles the packet it finds precisely
when the packet's length survives the mask. -/
theorem handlesStep_iff (b : SpiBus Chip Phase) (a : Arrival) (hb : b.dev.rxFifo = []) :
    HandlesStep b a ↔ LengthSurvives a := by
  have hread := readOutcome_receive hb a
  have hle := mask_le _ a.le
  have heq := mask_eq_iff _ a.le
  have hpos := a.pos
  rw [← radioReader_step] at hread
  dsimp only at hread
  simp only [HandlesStep, HandlesPacket, LengthSurvives]
  generalize (radioReader.step b a).2 = d at hread
  generalize (radioReader.step b a).1.dev.rxFifo = left at hread
  generalize a.packet.length &&& 0xD7 = m at hread hle heq
  by_cases hdeliver : 0 < m ∧ m ≤ a.bufLen.toNat
  · rw [if_pos hdeliver] at hread
    obtain ⟨hbuf, hlen, hstatus, hleft⟩ := hread
    by_cases hfits : a.packet.length ≤ a.bufLen.toNat
    · rw [if_pos hfits, ← heq]
      constructor
      · rintro ⟨-, hn, -⟩
        left; omega
      · intro h
        have hmn : m = a.packet.length := by omega
        rw [hbuf, hleft, hmn, List.take_length, List.drop_length]
        refine ⟨CArray.slice_overlay _ _ _, by omega, ?_, by rw [hstatus], rfl⟩
        intro i hi
        exact CArray.overlay_of_ge _ _ (by omega)
    · rw [if_neg hfits, ← heq]
      constructor
      · rintro ⟨-, hzero, -⟩
        rw [hzero] at hlen
        exact absurd hlen.symm (by simp; omega)
      · intro h; omega
  · rw [if_neg hdeliver] at hread
    obtain ⟨hbuf, hlen, hstatus, hleft⟩ := hread
    by_cases hfits : a.packet.length ≤ a.bufLen.toNat
    · rw [if_pos hfits, ← heq]
      constructor
      · rintro ⟨-, hn, -⟩
        rw [hlen] at hn
        exact absurd hn (by simp; omega)
      · intro h; omega
    · rw [if_neg hfits]
      exact iff_of_true ⟨hbuf, hlen, hstatus, hleft⟩ (Or.inr ⟨by omega, by omega⟩)

/-- A call that handles its packet leaves an empty FIFO. -/
theorem HandlesStep.rxFifo_eq_nil {b : SpiBus Chip Phase} {a : Arrival} (h : HandlesStep b a) :
    (radioReader.step b a).1.dev.rxFifo = [] := by
  rw [HandlesStep, HandlesPacket] at h
  split_ifs at h with hfits
  · exact h.2.2.2.2
  · exact h.2.2.2

/-! ### A run -/

/-- **Every call of a run handles its own packet exactly when every length survives the mask.** -/
theorem radioReader_handles_iff (arrivals : List Arrival) (b : SpiBus Chip Phase)
    (hb : b.dev.rxFifo = []) :
    radioReader.Along HandlesStep b arrivals ↔ ∀ a ∈ arrivals, LengthSurvives a := by
  rw [← Mealy.along_const_iff (M := radioReader) (s := b)]
  exact Mealy.along_iff_of_invariant handlesStep_iff
    (fun b a hempty hq => ((handlesStep_iff b a hempty).mpr hq).rxFifo_eq_nil) hb arrivals

/-- A packet of `n + 1` bytes read into a buffer of 128. -/
def arrivalOfLength (n : ℕ) (h : n < 128) : Arrival where
  packet := List.replicate (n + 1) 1
  pos := by
    rw [List.length_replicate]
    exact Nat.succ_pos n
  le := by
    rw [List.length_replicate]
    exact h
  regs := fun _ => 0x80
  buf := fun _ => 0
  bufLen := 128

/-- The factory test's twenty bytes, three times over. -/
theorem radioReader_handles_twenty :
    radioReader.Along HandlesStep resetBus (List.replicate 3 (arrivalOfLength 19 (by omega))) :=
  (radioReader_handles_iff _ resetBus rfl).mpr (by decide)

/-- An eight-byte packet is not handled. -/
theorem not_radioReader_handles_eight :
    ¬ ∀ (arrivals : List Arrival) (b : SpiBus Chip Phase), b.dev.rxFifo = [] →
      radioReader.Along HandlesStep b arrivals := by
  intro h
  have hstep := (h [arrivalOfLength 7 (by omega)] resetBus rfl).1
  rw [handlesStep_iff _ _ rfl] at hstep
  exact absurd hstep (by decide)

end Wise1511
