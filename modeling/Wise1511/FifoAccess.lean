import Wise1511.RadioDriver

/-!
# The two FIFO access paths

The radio's FIFOs are reached in two ways. `radio_prepare` and `radio_read` put the access bits into
the access type and leave the address bare (`0x3F`); `cc112xSpiWriteTxFifo` and
`cc112xSpiReadRxFifo` leave the access type at zero and pass an address that carries the bits
(`0x7F`, `0xFF`). The header byte is the same either way, but `trx8BitRegAccess` selects its byte
loop by the access type alone, and type zero is a *single write*.

So the second pair exchanges one data byte whatever the length, and it is a byte of the caller's
array even when the FIFO is meant to be read. The paths agree for one byte on the transmit side,
and on the receive side only when that one byte is zero at both ends.

## Main results

* `txPathsAgree_iff`, `rxPathsAgree_iff` — each side
* `fifoPaths_agree_iff` — both at once
-/

namespace Wise1511

variable (view : Chip → ℕ → UInt8)

/-- The bytes the master shifted out in a frame. -/
def mosi (frame : List (UInt8 × UInt8)) : List UInt8 := frame.map Prod.fst

/-- `cc112xSpiWriteTxFifo` exchanges the frame of `radio_prepare`: the burst header and all the
bytes, which the TX FIFO gains. -/
def TxPathsAgree (p : CArray) (n : UInt8) (b : SpiBus Chip Phase) : Prop :=
  let r := (cc112xSpiWriteTxFifo (cc112x view) p n).run b
  let q := (radioPrepare (cc112x view) p n.toUInt16).run b
  r.2.frames = q.2.frames ∧
    (r.2.frames.getLast?.map mosi = some (cc112xBurstTxfifo :: p.slice 0 n.toNat)) ∧
    r.2.dev.txFifo = b.dev.txFifo ++ p.slice 0 n.toNat

/-- `cc112xSpiReadRxFifo` exchanges the frame of the burst read inside `radio_read`, sends nothing
of `p`, and leaves the popped bytes in `p`. -/
def RxPathsAgree (p : CArray) (n : UInt8) (b : SpiBus Chip Phase) : Prop :=
  let r := (cc112xSpiReadRxFifo (cc112x view) p n).run b
  let q := (trx8BitRegAccess (cc112x view) (radioReadAccess ||| radioBurstAccess) rxfifo p
    n.toUInt16).run b
  r.2.frames = q.2.frames ∧
    (r.2.frames.getLast?.map mosi = some (cc112xBurstRxfifo :: List.replicate n.toNat 0)) ∧
    r.1.2.slice 0 n.toNat = b.dev.popRx n.toNat

/-! ### Frames determine their bytes -/

/-- The last frame on the bus shows the bytes that were sent in it. -/
theorem mosi_getLast_frame (S : SpiSlave Chip Phase) (b : SpiBus Chip Phase) (out : List UInt8) :
    (b.frame S out).frames.getLast?.map mosi = some out := by
  have hlen : (b.frameReplies S out).length = out.length := b.length_frameReplies S out
  rw [SpiBus.frame_frames, List.getLast?_concat, Option.map_some, mosi,
    List.map_fst_zip hlen.ge]

theorem frame_frames_inj (S : SpiSlave Chip Phase) (b : SpiBus Chip Phase) {xs ys : List UInt8}
    (h : (b.frame S xs).frames = (b.frame S ys).frames) : xs = ys := by
  have hlast := congrArg (fun f => f.getLast?.map mosi) h
  simp only [mosi_getLast_frame] at hlast
  exact Option.some.inj hlast

/-! ### The transmit side -/

/-- What `cc112xSpiWriteTxFifo` sends: the header and one byte. -/
theorem run_cc112xSpiWriteTxFifo (p : CArray) (n : UInt8) (b : SpiBus Chip Phase) :
    ((cc112xSpiWriteTxFifo (cc112x view) p n).run b).2
      = b.frame (cc112x view) [cc112xBurstTxfifo, p 0] := by
  rw [cc112xSpiWriteTxFifo, run_trx8BitRegAccess]
  rfl

theorem run_radioPrepare (p : CArray) (n : UInt8) (b : SpiBus Chip Phase) :
    ((radioPrepare (cc112x view) p n.toUInt16).run b).2
      = b.frame (cc112x view) (cc112xBurstTxfifo :: p.slice 0 n.toNat) := by
  rw [radioPrepare, SpiM.run_bind, SpiM.run_pure, run_trx8BitRegAccess, UInt8.toNat_toUInt16]
  rfl

/-- `radio_prepare` itself does append the whole payload. -/
theorem run_radioPrepare_txFifo (p : CArray) (n : UInt8) (b : SpiBus Chip Phase) :
    ((radioPrepare (cc112x view) p n.toUInt16).run b).2.dev.txFifo
      = b.dev.txFifo ++ p.slice 0 n.toNat := by
  have hdev := (run_writeTxFifo view p n.toUInt16 b).2
  rw [UInt8.toNat_toUInt16] at hdev
  rw [radioPrepare, SpiM.run_bind, SpiM.run_pure]
  exact congrArg Chip.txFifo hdev

theorem txPathsAgree_iff (p : CArray) (n : UInt8) (b : SpiBus Chip Phase) :
    TxPathsAgree view p n b ↔ n = 1 := by
  constructor
  · rintro ⟨hframes, -⟩
    rw [run_cc112xSpiWriteTxFifo, run_radioPrepare] at hframes
    have hbytes : [p 0] = p.slice 0 n.toNat := (List.cons.inj (frame_frames_inj _ b hframes)).2
    have hn : n.toNat = 1 := by simpa using (congrArg List.length hbytes).symm
    exact UInt8.toNat_inj.mp hn
  · rintro rfl
    have hsame : ((cc112xSpiWriteTxFifo (cc112x view) p 1).run b).2
        = ((radioPrepare (cc112x view) p (1 : UInt8).toUInt16).run b).2 := by
      rw [run_cc112xSpiWriteTxFifo, run_radioPrepare]
      rfl
    refine ⟨congrArg SpiBus.frames hsame, ?_, ?_⟩
    · rw [run_cc112xSpiWriteTxFifo, mosi_getLast_frame]
      rfl
    · rw [hsame, run_radioPrepare_txFifo]

/-! ### The receive side -/

/-- What `cc112xSpiReadRxFifo` does: the header and one byte of the array go out, and nothing is
stored. -/
theorem run_cc112xSpiReadRxFifo (p : CArray) (n : UInt8) (b : SpiBus Chip Phase) :
    let r := (cc112xSpiReadRxFifo (cc112x view) p n).run b
    r.1.2 = p ∧ r.2 = b.frame (cc112x view) [cc112xBurstRxfifo, p 0] := by
  rw [cc112xSpiReadRxFifo, run_trx8BitRegAccess]
  exact ⟨rfl, rfl⟩

theorem run_readRxFifo_frame (p : CArray) (n : UInt8) (b : SpiBus Chip Phase) :
    ((trx8BitRegAccess (cc112x view) (radioReadAccess ||| radioBurstAccess) rxfifo p
      n.toUInt16).run b).2
      = b.frame (cc112x view) (cc112xBurstRxfifo :: List.replicate n.toNat 0) := by
  rw [run_trx8BitRegAccess, UInt8.toNat_toUInt16]
  rfl

theorem rxPathsAgree_iff (p : CArray) (n : UInt8) (b : SpiBus Chip Phase) :
    RxPathsAgree view p n b
      ↔ n = 1 ∧ p 0 = 0 ∧ b.dev.rxFifo.headD b.dev.underrun = 0 := by
  have hpop : b.dev.popRx 1 = [b.dev.rxFifo.headD b.dev.underrun] := popRx_succ b.dev 0
  constructor
  · rintro ⟨hframes, -, hdata⟩
    rw [(run_cc112xSpiReadRxFifo view p n b).2, run_readRxFifo_frame] at hframes
    have hbytes : [p 0] = List.replicate n.toNat 0 :=
      (List.cons.inj (frame_frames_inj _ b hframes)).2
    have hn : n.toNat = 1 := by simpa using (congrArg List.length hbytes).symm
    have hzero : p 0 = 0 := by
      rw [hn] at hbytes
      exact (List.cons.inj hbytes).1
    rw [(run_cc112xSpiReadRxFifo view p n b).1, hn, hpop] at hdata
    exact ⟨UInt8.toNat_inj.mp hn, hzero, (List.cons.inj hdata).1.symm.trans hzero⟩
  · rintro ⟨rfl, hzero, hhead⟩
    have hsame : ((cc112xSpiReadRxFifo (cc112x view) p 1).run b).2
        = b.frame (cc112x view) (cc112xBurstRxfifo :: List.replicate (1 : UInt8).toNat 0) := by
      rw [(run_cc112xSpiReadRxFifo view p 1 b).2, hzero]
      rfl
    refine ⟨?_, ?_, ?_⟩
    · rw [hsame, run_readRxFifo_frame]
    · rw [hsame, mosi_getLast_frame]
    · rw [(run_cc112xSpiReadRxFifo view p 1 b).1]
      show [p 0] = b.dev.popRx 1
      rw [hpop, hzero, hhead]

/-! ### Both -/

/-- **The two paths agree on one zero byte and nothing else.** -/
theorem fifoPaths_agree_iff (p : CArray) (n : UInt8) (b : SpiBus Chip Phase) :
    (TxPathsAgree view p n b ∧ RxPathsAgree view p n b)
      ↔ n = 1 ∧ p 0 = 0 ∧ b.dev.rxFifo.headD b.dev.underrun = 0 := by
  rw [txPathsAgree_iff, rxPathsAgree_iff]
  constructor
  · rintro ⟨-, h⟩
    exact h
  · intro h
    exact ⟨h.1, h⟩

/-- A chip with three bytes in its RX FIFO. -/
def threeByteBus : SpiBus Chip Phase :=
  { resetBus with dev := { resetBus.dev with rxFifo := [5, 6, 7] } }

/-- Three bytes are neither sent nor received as the driver's other path does it. -/
theorem not_fifoPaths_agree_three :
    ¬ TxPathsAgree liveView (fun i => UInt8.ofNat (i + 1)) 3 threeByteBus ∧
      ¬ RxPathsAgree liveView (fun i => UInt8.ofNat (i + 1)) 3 threeByteBus := by
  rw [txPathsAgree_iff, rxPathsAgree_iff]
  decide

end Wise1511
