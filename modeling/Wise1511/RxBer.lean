import Wise1511.BerTest

/-!
# What the receiver reports

`rx_ber_single` prints a line in every iteration: after a packet with good CRC, and just as well
after a bad one or none. The packet number comes from the packet buffer, which a bad packet
overwrites too; content, RSSI and frequency error come from variables that only a good packet
updates, and that nothing initialises.

A `Reception` is what the radio does in one iteration, the packet that comes in among it. What
`radio_read` stores need not be that packet: it stores the front of the RX FIFO, as many bytes as
its mask leaves of the fill level, so bytes of an earlier packet may come first. A line is about the
packet of its own iteration exactly when that packet has good CRC, nothing else shows in what is
stored, and what is stored has room for the number and an end to the text.

Nothing here depends on the build: the two-way receiver changes its buffer only from byte 3 on,
after the text has been copied out.

## Main results

* `rxIter_line` — the line of one iteration
* `lineOf_iff` — when it is a line of that iteration's packet
* `reportsFaithfully_iff` — a whole run
-/

namespace Wise1511

/-! ### One call of `radio_read` -/

/-- The packet `radio_read` stores into a buffer of 32 bytes, if it stores one. -/
def delivered (c : Chip) : Option (List UInt8) :=
  if 0 < seenLen c ∧ (seenLen c).toUInt16 ≤ UInt16.ofNat bufferSize then
    some (c.popRx (seenLen c).toNat)
  else
    none

/-- The `CRC_OK` bit of `LQI_VAL`. -/
def GoodCrc (c : Chip) : Prop := c.regs lqiVal.toNat &&& crcOk ≠ 0

instance (c : Chip) : Decidable (GoodCrc c) := inferInstanceAs (Decidable (_ ≠ _))

theorem readOutcome_regs (c : Chip) (buf : CArray) (bufLen : UInt16) :
    (readOutcome c buf bufLen).2.regs = c.regs := by
  simp only [readOutcome]
  split_ifs <;> rfl

theorem readOutcome_of_delivered {c : Chip} {packet : List UInt8} (h : delivered c = some packet)
    (buf : CArray) :
    (readOutcome c buf (UInt16.ofNat bufferSize)).1.buf = buf.overlay 0 packet ∧
      (0 < (readOutcome c buf (UInt16.ofNat bufferSize)).1.status ↔ GoodCrc c) := by
  rw [delivered] at h
  split_ifs at h with hlen
  obtain rfl := Option.some.inj h
  rw [readOutcome, if_pos hlen]
  exact ⟨rfl, UInt8.pos_iff_ne_zero⟩

/-! ### One iteration -/

/-- The reply still starts with the system id and the number. -/
theorem replyPacket_of_lt {i : ℕ} (hi : i < 3) (txBuffer : CArray) (rssi : ℤ) (pktlen : ℕ) :
    replyPacket txBuffer rssi pktlen i = txBuffer i := by
  have hnotin : i ∉ dataIndices pktlen := by
    rw [mem_dataIndices]
    omega
  rw [replyPacket, foldl_countAndClean_of_notMem _ hnotin (by omega),
    Function.update_of_ne (by omega), Function.update_of_ne (by omega)]

theorem currPktId_replyPacket (txBuffer : CArray) (rssi : ℤ) (pktlen : ℕ) :
    currPktId (replyPacket txBuffer rssi pktlen) = currPktId txBuffer := by
  rw [currPktId, replyPacket_of_lt (by decide), replyPacket_of_lt (by decide), currPktId]

variable (twoWay : Bool) (pktlen : UInt16)

/-- After a good packet: the number is the buffer's, the rest is new, and the packet is counted. -/
theorem run_rxGood (replied : Chip → Chip) (buf : CArray) (v : RxVars) (b : SpiBus Chip Phase) :
    let v' := ((rxGood (cc112x liveView) twoWay pktlen replied buf v).run b).1
    currPktId v'.txBuffer = currPktId buf ∧ v'.content = copyContent v.content buf ∧
      v'.rssi = rssiOf (b.dev.regs rssi1.toNat) ∧
      v'.freqError
        = freqErrorOf (b.dev.regs freqoffEst1.toNat) (b.dev.regs freqoffEst0.toNat) ∧
      v'.pckGoodCnt = v.pckGoodCnt + 1 := by
  obtain ⟨hrssi, hdev⟩ := run_radioGetRssi b
  obtain ⟨hfreq, -⟩ := run_radioFreqError ((radioGetRssi (cc112x liveView)).run b).2
  rw [hdev] at hfreq
  cases twoWay with
  | false => exact ⟨rfl, rfl, hrssi, hfreq, rfl⟩
  | true => exact ⟨currPktId_replyPacket _ _ _, rfl, hrssi, hfreq, rfl⟩

/-- The receiver as a machine: an iteration takes what the air does to the line printed. -/
def rxBer : Mealy (RxVars × SpiBus Chip Phase) (RxEvent Chip) RxLine where
  step s e :=
    let r := (rxIter (cc112x liveView) twoWay pktlen e.received e.replied s.1).run s.2
    ((r.1.1, r.2), r.1.2)

/-- **The line of one iteration**, by whether its `radio_read` delivered a good packet. -/
theorem rxIter_line (s : RxVars × SpiBus Chip Phase) (e : RxEvent Chip) :
    let c := e.received s.2.dev
    let d := (readOutcome c s.1.txBuffer (UInt16.ofNat bufferSize)).1
    let v' := ((rxBer twoWay pktlen).step s e).1.1
    ((rxBer twoWay pktlen).step s e).2
        = ⟨currPktId d.buf, v'.rssi, v'.freqError, v'.content⟩ ∧
      if 0 < d.status then
        v'.content = copyContent s.1.content d.buf ∧ v'.rssi = rssiOf (c.regs rssi1.toNat) ∧
          v'.freqError = freqErrorOf (c.regs freqoffEst1.toNat) (c.regs freqoffEst0.toNat) ∧
          v'.pckGoodCnt = s.1.pckGoodCnt + 1
      else
        v' = { s.1 with txBuffer := d.buf } := by
  have hread := run_radioRead s.1.txBuffer (UInt16.ofNat bufferSize)
    { s.2 with dev := e.received s.2.dev }
  simp only [rxBer, rxIter, SpiM.run_bind, run_elapse]
  generalize (radioRead (cc112x liveView) s.1.txBuffer (UInt16.ofNat bufferSize)).run
    { s.2 with dev := e.received s.2.dev } = r at hread
  obtain ⟨hd, hdev⟩ := Prod.ext_iff.mp hread
  have hregs : r.2.dev.regs = (e.received s.2.dev).regs :=
    (congrArg Chip.regs hdev).trans (readOutcome_regs _ _ _)
  rw [← hd]
  by_cases hgood : 0 < r.1.status
  · obtain ⟨hnum, hcontent, hrssi, hfreq, hcnt⟩ :=
      run_rxGood twoWay pktlen e.replied r.1.buf s.1 r.2
    rw [hregs] at hrssi hfreq
    simp only [if_pos hgood, SpiM.run_bind, SpiM.run_pure, rxLine, hnum]
    exact ⟨trivial, hcontent, hrssi, hfreq, hcnt⟩
  · simp only [if_neg hgood, SpiM.run_bind, SpiM.run_pure]
    exact ⟨rfl, rfl⟩

/-! ### Lines about one packet -/

/-- What the radio does in one iteration. -/
structure Reception where
  /-- Before the packet is in. -/
  before : Chip → Chip
  /-- The packet that comes in; empty if none does. -/
  packet : List UInt8
  /-- The registers then. -/
  regs : CArray
  /-- During the second wait. -/
  replied : Chip → Chip

namespace Reception

variable (e : Reception)

/-- The chip when `radio_read` is called. -/
def received (c : Chip) : Chip := (e.before c).receive e.packet e.regs

/-- What it is to the receiver's loop. -/
def event : RxEvent Chip := ⟨e.received, e.replied⟩

theorem event_received (c : Chip) : e.event.received c = e.received c := rfl

/-- The packet has come in with good CRC. -/
def Good : Prop := e.regs lqiVal.toNat &&& crcOk ≠ 0

instance : Decidable e.Good := inferInstanceAs (Decidable (_ ≠ _))

/-- What `radio_read` makes of the fill level. -/
def stored (c : Chip) : ℕ :=
  (maskLen (UInt8.ofNat ((e.before c).rxFifo.length + e.packet.length))).toNat

end Reception

/-- The line pairs values of the packet that came in, which had good CRC and of which `radio_read`
stored the first bytes. The text printed is all inside these. -/
def LineOf (e : Reception) (c : Chip) (line : RxLine) : Prop :=
  ∃ (bytes : List UInt8) (hi lo : UInt8) (text : List UInt8),
    e.Good ∧ delivered (e.received c) = some bytes ∧ bytes <+: e.packet ∧
    bytes[1]? = some hi ∧ bytes[2]? = some lo ∧
    line.currPktId = (hi.toUInt32 <<< 8) + lo.toUInt32 ∧
    line.rssi = rssiOf (e.regs rssi1.toNat) ∧
    line.freqError = freqErrorOf (e.regs freqoffEst1.toNat) (e.regs freqoffEst0.toNat) ∧
    text <+: bytes.drop 3 ∧ line.content.HoldsString text

/-- The packet has good CRC; the mask leaves at least three bytes of the fill level, no more than
the buffer or the packet has, and at the front of the FIFO these are the packet's; and the text ends
among them, or at a NUL the buffer happens to hold right after them. -/
def Reportable (txBuffer : CArray) (c : Chip) (e : Reception) : Prop :=
  e.Good ∧ 3 ≤ e.stored c ∧ e.stored c ≤ bufferSize ∧ e.stored c ≤ e.packet.length ∧
    ((e.before c).rxFifo ++ e.packet).take (e.stored c) = e.packet.take (e.stored c) ∧
    (0 ∈ (e.packet.take (e.stored c)).drop 3 ∨ txBuffer (e.stored c) = 0)

theorem maskLen_le : ∀ pktLen : UInt8, (maskLen pktLen).toNat ≤ pktLen.toNat := by decide +kernel

/-- No more is stored than there is. -/
theorem Reception.stored_le (e : Reception) (c : Chip) :
    e.stored c ≤ ((e.before c).rxFifo ++ e.packet).length := by
  rw [List.length_append]
  refine (maskLen_le _).trans ?_
  rw [UInt8.toNat_ofNat']
  exact Nat.mod_le _ _

/-- What is stored is the front of the FIFO. -/
theorem Reception.delivered_received (e : Reception) (c : Chip) :
    delivered (e.received c) =
      if 0 < e.stored c ∧ e.stored c ≤ bufferSize then
        some (((e.before c).rxFifo ++ e.packet).take (e.stored c))
      else none := by
  have hseen : seenLen (e.received c)
      = maskLen (UInt8.ofNat ((e.before c).rxFifo.length + e.packet.length)) := by
    rw [seenLen, received, Chip.receive, List.length_append]
  have hpos : 0 < seenLen (e.received c) ↔ 0 < e.stored c := by
    rw [UInt8.lt_iff_toNat_lt, hseen]
    rfl
  have hle : (seenLen (e.received c)).toUInt16 ≤ UInt16.ofNat bufferSize
      ↔ e.stored c ≤ bufferSize := by
    rw [UInt16.le_iff_toNat_le, UInt8.toNat_toUInt16, hseen]
    rfl
  have hpop : (e.received c).popRx (e.stored c)
      = ((e.before c).rxFifo ++ e.packet).take (e.stored c) :=
    popRx_eq_take _ (e.stored_le c)
  rw [delivered]
  simp only [hpos, hle]
  rw [← hpop, stored, ← hseen]

/-- A byte of a buffer is a NUL of the packet laid over it, or the one behind the packet. -/
theorem exists_overlay_eq_zero_iff (buf : CArray) {bytes : List UInt8} (h : 3 ≤ bytes.length) :
    (∃ j, 3 ≤ j ∧ j ≤ bytes.length ∧ buf.overlay 0 bytes j = 0)
      ↔ 0 ∈ bytes.drop 3 ∨ buf bytes.length = 0 := by
  constructor
  · rintro ⟨j, hj, hle, hnul⟩
    rcases Nat.lt_or_eq_of_le hle with hlt | rfl
    · left
      rw [CArray.overlay_zero hlt] at hnul
      rw [List.mem_iff_getElem]
      refine ⟨j - 3, by rw [List.length_drop]; omega, ?_⟩
      rw [List.getElem_drop]
      simpa [Nat.add_sub_cancel' hj] using hnul
    · right
      rwa [CArray.overlay_of_ge _ _ (by omega)] at hnul
  · rintro (hmem | hnul)
    · obtain ⟨i, hi, hnul⟩ := List.mem_iff_getElem.mp hmem
      rw [List.getElem_drop] at hnul
      rw [List.length_drop] at hi
      exact ⟨3 + i, by omega, by omega, (CArray.overlay_zero (by omega)).trans hnul⟩
    · exact ⟨bytes.length, h, le_rfl, (CArray.overlay_of_ge _ _ (by omega)).trans hnul⟩

/-- The text that is copied out ends inside the packet just if there is such a NUL. -/
theorem exists_text_iff (content buf : CArray) {bytes : List UInt8} (h : 3 ≤ bytes.length)
    (hmax : bytes.length ≤ bufferSize) :
    (∃ text, text <+: bytes.drop 3 ∧
        (copyContent content (buf.overlay 0 bytes)).HoldsString text)
      ↔ 0 ∈ bytes.drop 3 ∨ buf bytes.length = 0 := by
  rw [← exists_overlay_eq_zero_iff buf h]
  have hsize : bufferSize = 32 := rfl
  constructor
  · rintro ⟨text, htext, hstring⟩
    have hlength : text.length ≤ bytes.length - 3 := by
      simpa using htext.length_le
    rw [copyContent, CArray.holdsString_strncpy_iff (by omega)] at hstring
    exact ⟨3 + text.length, by omega, by omega, hstring.nul⟩
  · rintro ⟨j, hj, hle, hnul⟩
    obtain ⟨j, rfl⟩ := Nat.exists_eq_add_of_le hj
    obtain ⟨m, hm, hstring⟩ := CArray.exists_holdsString
      (p := CArray.shift (buf.overlay 0 bytes) 3) hnul
    rw [CArray.slice_shift_overlay _ (by omega)] at hstring
    refine ⟨(bytes.drop 3).take m, List.take_prefix _ _, ?_⟩
    rw [copyContent, CArray.holdsString_strncpy_iff
      (by simp only [List.length_take, List.length_drop]; omega)]
    exact hstring

/-- The receiver as a machine over receptions. -/
def rxReceptions : Mealy (RxVars × SpiBus Chip Phase) Reception RxLine :=
  (rxBer twoWay pktlen).onInputs Reception.event

/-- The line after a good packet, and the count. -/
theorem line_of_delivered {s : RxVars × SpiBus Chip Phase} {e : Reception} {bytes : List UInt8}
    (hgood : e.Good) (hbytes : delivered (e.received s.2.dev) = some bytes) :
    let buf := CArray.overlay s.1.txBuffer 0 bytes
    let r := (rxReceptions twoWay pktlen).step s e
    r.2 = ⟨currPktId buf, rssiOf (e.regs rssi1.toNat),
        freqErrorOf (e.regs freqoffEst1.toNat) (e.regs freqoffEst0.toNat),
        copyContent s.1.content buf⟩ ∧
      r.1.1.pckGoodCnt = s.1.pckGoodCnt + 1 := by
  obtain ⟨hline, hvars⟩ := rxIter_line twoWay pktlen s e.event
  obtain ⟨hbuf, hstatus⟩ := readOutcome_of_delivered hbytes s.1.txBuffer
  rw [e.event_received] at hline hvars
  rw [if_pos (hstatus.mpr hgood), hbuf] at hvars
  obtain ⟨hcontent, hrssi, hfreq, hcount⟩ := hvars
  refine ⟨hline.trans ?_, hcount⟩
  rw [hbuf, hcontent, hrssi, hfreq]
  rfl

/-- **When a line is faithful.** -/
theorem lineOf_iff (s : RxVars × SpiBus Chip Phase) (e : Reception) :
    LineOf e s.2.dev ((rxReceptions twoWay pktlen).step s e).2
      ↔ Reportable s.1.txBuffer s.2.dev e := by
  have hdel := e.delivered_received s.2.dev
  have hlen := List.length_take_of_le (e.stored_le s.2.dev)
  constructor
  · rintro ⟨bytes, hi, lo, text, hgood, hbytes, hprefix, -, hlo, -, -, -, htext, hstring⟩
    rw [(line_of_delivered twoWay pktlen hgood hbytes).1] at hstring
    rw [hdel] at hbytes
    split_ifs at hbytes with hfits
    obtain rfl := Option.some.inj hbytes
    have hthree : 3 ≤ e.stored s.2.dev := by
      rw [← hlen]
      exact (List.getElem?_eq_some_iff.mp hlo).1
    have hpacket := hprefix.length_le
    have htake := List.prefix_iff_eq_take.mp hprefix
    have hnul := (exists_text_iff s.1.content s.1.txBuffer (by omega) (by omega)).mp
      ⟨text, htext, hstring⟩
    rw [hlen] at hpacket htake
    rw [hlen, htake] at hnul
    exact ⟨hgood, hthree, hfits.2, hpacket, htake, hnul⟩
  · rintro ⟨hgood, hthree, hmax, hpacket, htake, hnul⟩
    have hbytes : delivered (e.received s.2.dev)
        = some (e.packet.take (e.stored s.2.dev)) := by
      rw [hdel, if_pos ⟨by omega, hmax⟩, htake]
    rw [(line_of_delivered twoWay pktlen hgood hbytes).1]
    rw [htake] at hlen
    obtain ⟨text, htext, hstring⟩ := (@exists_text_iff s.1.content s.1.txBuffer
      (e.packet.take (e.stored s.2.dev)) (by omega) (by omega)).mpr (by rwa [hlen])
    have hprefix : e.packet.take (e.stored s.2.dev) <+: e.packet := List.take_prefix _ _
    generalize e.packet.take (e.stored s.2.dev) = bytes at hbytes hlen htext hstring hprefix ⊢
    refine ⟨bytes, bytes[1], bytes[2], text, hgood, hbytes, hprefix,
      List.getElem?_eq_getElem (by omega), List.getElem?_eq_getElem (by omega), ?_, rfl, rfl, htext,
      hstring⟩
    rw [currPktId, CArray.overlay_zero (show 1 < bytes.length by omega),
      CArray.overlay_zero (show 2 < bytes.length by omega)]

/-! ### A run -/

/-- The loop is the machine run over its events. -/
theorem run_rxLoop (es : List (RxEvent Chip)) (v : RxVars) (b : SpiBus Chip Phase) :
    (rxLoop (cc112x liveView) twoWay pktlen es v).run b
      = ((((rxBer twoWay pktlen).after (v, b) es).1, (rxBer twoWay pktlen).outputs (v, b) es),
          ((rxBer twoWay pktlen).after (v, b) es).2) := by
  induction es generalizing v b with
  | nil => rfl
  | cons e es ih =>
    rw [rxLoop, SpiM.run_bind, SpiM.run_bind, SpiM.run_pure, ih]
    rfl

@[simp] theorem length_eventsUpTo {ε : Type} (pktnum : UInt32) (event : ℕ → ε) :
    (eventsUpTo pktnum event).length = pktnum.toNat := by
  simp [eventsUpTo]

/-- The state in which the loop of `rx_ber_single` starts. -/
def rxStartState (freq : UInt32) (v : RxVars) (b : SpiBus Chip Phase) :
    RxVars × SpiBus Chip Phase :=
  ({ v with pckGoodCnt := 0 }, ((rxStart (cc112x liveView) pktlen freq).run b).2)

theorem run_rxBerSingle (freq chbw channel : Int32) (pktnum : UInt32) (event : ℕ → RxEvent Chip)
    (v : RxVars) (b : SpiBus Chip Phase) :
    let s := rxStartState pktlen (channelFreq freq chbw channel) v b
    let s' := (rxBer twoWay pktlen).after s (eventsUpTo pktnum event)
    (rxBerSingle (cc112x liveView) twoWay pktlen freq chbw channel pktnum event v).run b
      = ((s'.1, (rxBer twoWay pktlen).outputs s (eventsUpTo pktnum event)), s'.2) := by
  intro s s'
  rw [rxBerSingle, SpiM.run_bind, rxBurst, run_rxLoop]
  rfl

/-- Reportable iterations are counted, modulo the width of the counter. -/
theorem pckGoodCnt_after {s : RxVars × SpiBus Chip Phase} {es : List Reception}
    (h : (rxReceptions twoWay pktlen).Along (fun s e => Reportable s.1.txBuffer s.2.dev e) s es) :
    ((rxReceptions twoWay pktlen).after s es).1.pckGoodCnt
      = s.1.pckGoodCnt + UInt32.ofNat es.length := by
  induction es generalizing s with
  | nil => simp
  | cons e es ih =>
    obtain ⟨hreport, hrest⟩ := h
    obtain ⟨bytes, -, -, -, hgood, hbytes, -⟩ := (lineOf_iff twoWay pktlen s e).mpr hreport
    rw [Mealy.after_cons, ih hrest, (line_of_delivered twoWay pktlen hgood hbytes).2,
      List.length_cons, Nat.add_comm, UInt32.ofNat_add, ← UInt32.add_assoc]
    rfl

theorem map_eventsUpTo {ε δ : Type} (pktnum : UInt32) (event : ℕ → ε) (f : ε → δ) :
    eventsUpTo pktnum (fun i => f (event i)) = (eventsUpTo pktnum event).map f := by
  rw [eventsUpTo, eventsUpTo, List.map_map]
  rfl

/-- Every line of the run is about the packet of its own iteration, and there are as many lines as
good packets. -/
def ReportsFaithfully (freq chbw channel : Int32) (pktnum : UInt32) (reception : ℕ → Reception)
    (v : RxVars) (b : SpiBus Chip Phase) : Prop :=
  let r := (rxBerSingle (cc112x liveView) twoWay pktlen freq chbw channel pktnum
    (fun i => (reception i).event) v).run b
  (rxReceptions twoWay pktlen).Along
      (fun s e => LineOf e s.2.dev ((rxReceptions twoWay pktlen).step s e).2)
      (rxStartState pktlen (channelFreq freq chbw channel) v b) (eventsUpTo pktnum reception) ∧
    r.1.2.length = r.1.1.pckGoodCnt.toNat

/-- **The report is faithful exactly when every iteration is reportable**: a good packet each time,
of which `radio_read` stores the beginning and nothing else, with its number and the end of its text
in it. -/
theorem reportsFaithfully_iff (freq chbw channel : Int32) (pktnum : UInt32)
    (reception : ℕ → Reception) (v : RxVars) (b : SpiBus Chip Phase) :
    ReportsFaithfully twoWay pktlen freq chbw channel pktnum reception v b
      ↔ (rxReceptions twoWay pktlen).Along (fun s e => Reportable s.1.txBuffer s.2.dev e)
          (rxStartState pktlen (channelFreq freq chbw channel) v b)
          (eventsUpTo pktnum reception) := by
  have hlines := Mealy.along_congr (M := rxReceptions twoWay pktlen) (lineOf_iff twoWay pktlen)
  rw [ReportsFaithfully, hlines]
  constructor
  · rintro ⟨hrun, -⟩
    exact hrun
  · intro hrun
    refine ⟨hrun, ?_⟩
    have hcount := pckGoodCnt_after twoWay pktlen hrun
    rw [rxReceptions, Mealy.after_onInputs] at hcount
    rw [run_rxBerSingle, Mealy.length_outputs, length_eventsUpTo, map_eventsUpTo, hcount,
      length_eventsUpTo]
    show pktnum.toNat = (0 + UInt32.ofNat pktnum.toNat).toNat
    rw [UInt32.zero_add, UInt32.ofNat_toNat]

/-- Packet 7 with good CRC, then packet 8 with bad CRC. -/
def goodThenBad : ℕ → Reception
  | 0 => ⟨id, (fillPacket (fun _ => 0) 7).slice 0 20, fun _ => 0x80, id⟩
  | _ => ⟨id, (fillPacket (fun _ => 0) 8).slice 0 20, fun _ => 0, id⟩

/-- The second line of this run is about no good packet. -/
theorem not_reportsFaithfully_goodThenBad :
    ¬ ReportsFaithfully false 20 868000 500 0 2 goodThenBad
      ⟨fun _ => 0, fun _ => 0, 0, 0, 0⟩ resetBus := by
  rintro ⟨⟨-, ⟨bytes, hi, lo, text, hgood, -⟩, -⟩, -⟩
  exact hgood rfl

end Wise1511
