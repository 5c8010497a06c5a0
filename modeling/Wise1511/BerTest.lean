import Wise1511.Lib.Decimal
import Wise1511.RadioFreq

/-!
# The bit-error-rate test

`tx_ber_single` and `rx_ber_single` of `RfTest.cpp`. `ENABLE_TWO_WAY_LINK` is a parameter: the
repository defines it `FALSE` and keeps the `TRUE` alternative beside it, in which the receiver
sends every packet back and both sides count errors.

A loop body is a master program that takes its local variables and gives them back. Where it calls
`radio_wait_for_idle`, the radio is left to itself and the air happens: `elapse` takes what the
device has become by the time the call returns. `BerPolling` has the calls themselves.

`unsigned int` and `unsigned long` are 32 bits wide on the target. The report of `tx_ber_single` is
in `RfTest`.

## Main definitions

* `fillPacket` — the packet of a burst number
* `txIter`, `rxIter` — the two loop bodies
* `rxBerSingle` — the receiver
-/

namespace Wise1511

/-! ### Packets -/

/-- `SYSTEM_ID`. -/
def systemId : UInt8 := 0

/-- `rand_data`. -/
def randDataTable : List UInt8 := [
  228, 185, 142, byteOf 'A', byteOf 'd', byteOf 'v', byteOf 'a', byteOf 'n', byteOf 't', byteOf 'e',
  byteOf 'c', byteOf 'h', 0, 51, 253, 117, 172, 161, 191, 79, 58, 225, 215, 149, 251, 15, 163, 153,
  236, 141, 172, 3, 186, 224, 37, 224, 210, 75, 69, 117, 58, 153, 207, 61, 203, 19, 125, 76, 90,
  143, 226, 11, 208, 16, 72, 109, 217, 100, 12, 128]

/-- `rand_data` as an array. -/
def randData : CArray := fun i => randDataTable.getD i 0

/-- `)_Advantech`, the part of the text after the number. -/
def advantech : List UInt8 := [
  byteOf ')', byteOf '_', byteOf 'A', byteOf 'd', byteOf 'v', byteOf 'a', byteOf 'n', byteOf 't',
  byteOf 'e', byteOf 'c', byteOf 'h']

/-- What `"(%d)_Advantech"` formats to. -/
def burstText (cc : UInt32) : List UInt8 := byteOf '(' :: (fmtD cc ++ advantech)

/-- The three bytes and the text that `tx_ber_single` puts into its buffer. -/
def fillPacket (txBuffer : CArray) (cc : UInt32) : CArray :=
  let txBuffer := Function.update txBuffer 0 systemId
  let txBuffer := Function.update txBuffer 1 ((cc >>> 8) &&& 0xFF).toUInt8
  let txBuffer := Function.update txBuffer 2 (cc &&& 0xFF).toUInt8
  CArray.sprintf txBuffer 3 (burstText cc)

/-- `(txBuffer[1] << 8) + txBuffer[2]`. -/
def currPktId (txBuffer : CArray) : UInt32 := ((txBuffer 1).toUInt32 <<< 8) + (txBuffer 2).toUInt32

/-- The indices of `for (dd = 5; dd < pktlen; dd++)`. -/
def dataIndices (pktlen : ℕ) : List ℕ := List.range' 5 (pktlen - 5)

/-- `sizeof(txBuffer)` and `sizeof(content)`. -/
def bufferSize : ℕ := 32

/-- `strncpy((char *)content, (char *)&txBuffer[3], sizeof(content))`. -/
def copyContent (content txBuffer : CArray) : CArray :=
  content.strncpy (txBuffer.shift 3) bufferSize

/-! ### The loop bodies -/

section Programs

variable {σ φ : Type} (S : SpiSlave σ φ)

/-- The variables of `tx_ber_single` that outlive an iteration. -/
structure TxVars where
  txBuffer : CArray
  rssiForward : ℤ
  rssiReverse : ℤ
  freqError : Int32
  dataError : UInt16
  errorForward : UInt32
  errorReverse : UInt32
  totalPktCount : UInt32

/-- The first half of an iteration of `tx_ber_single`: fill the packet, send it, wait. -/
def txSend (pktlen : UInt16) (cc : UInt32) (sent : σ → σ) (v : TxVars) : SpiM σ φ TxVars := do
  let txBuffer := fillPacket v.txBuffer cc
  radioSend S txBuffer pktlen
  elapse sent
  pure { v with txBuffer := txBuffer }

/-- `data_error` after the sender's loop over the data. -/
def dataErrors (txBuffer : CArray) (pktlen : ℕ) : UInt16 :=
  (dataIndices pktlen).foldl (fun n dd => if txBuffer dd ≠ randData dd then n + 1 else n) 0

/-- The measurement the receiver has put into the reply, as a signed number. -/
def rssiForwardOf (b : UInt8) : ℤ := if 128 ≤ b then -(256 - b.toNat) else b.toNat

/-- The second half, in the two-way build, from the status of the wait for the reply on. -/
def txReply (pktlen : UInt16) (status : UInt32) (v : TxVars) : SpiM σ φ TxVars :=
  if status ≤ 8000 then do
    let d ← radioRead S v.txBuffer pktlen
    let rssiReverse ← radioGetRssi S
    let freqError ← radioFreqError S
    let dataError := dataErrors d.buf pktlen.toNat
    pure
      { txBuffer := d.buf
        rssiForward := rssiForwardOf (d.buf 3)
        rssiReverse := rssiReverse
        freqError := freqError
        dataError := dataError
        errorForward := v.errorForward + (d.buf 4).toUInt32
        errorReverse := v.errorReverse + dataError.toUInt32
        totalPktCount := v.totalPktCount + 1 }
  else do
    radioIdle S
    pure
      { v with
        rssiForward := 0
        rssiReverse := 0
        dataError := pktlen
        errorForward := v.errorForward + pktlen.toUInt32
        errorReverse := v.errorReverse + pktlen.toUInt32
        totalPktCount := v.totalPktCount + 1 }

/-- The loop body of `tx_ber_single`. -/
def txIter (twoWay : Bool) (pktlen : UInt16) (cc : UInt32) (sent replied : σ → σ) (status : UInt32)
    (v : TxVars) : SpiM σ φ TxVars := do
  let v ← txSend S pktlen cc sent v
  if twoWay then do
    radioReceiveOn S
    elapse replied
    txReply S pktlen status v
  else
    pure v

/-- The variables of `rx_ber_single` that outlive an iteration. -/
structure RxVars where
  txBuffer : CArray
  content : CArray
  rssi : ℤ
  freqError : Int32
  pckGoodCnt : UInt32

/-- A line of the receiver's report. `content` is printed as a string. -/
structure RxLine where
  currPktId : UInt32
  rssi : ℤ
  freqError : Int32
  content : CArray

/-- The line printed from the variables. -/
def rxLine (v : RxVars) : RxLine := ⟨currPktId v.txBuffer, v.rssi, v.freqError, v.content⟩

/-- One turn of the receiver's loop over the data: count an error and clean the byte. -/
def countAndClean (txBuffer : CArray) (dd : ℕ) : CArray :=
  if txBuffer dd ≠ randData dd then
    Function.update (Function.update txBuffer 4 (txBuffer 4 + 1)) dd (randData dd)
  else
    txBuffer

/-- What the two-way receiver makes of the packet before it sends it back. -/
def replyPacket (txBuffer : CArray) (rssi : ℤ) (pktlen : ℕ) : CArray :=
  let txBuffer := Function.update txBuffer 3 (UInt8.ofInt rssi)
  let txBuffer := Function.update txBuffer 4 0
  (dataIndices pktlen).foldl countAndClean txBuffer

/-- The branch of `rx_ber_single` for a packet with good CRC. -/
def rxGood (twoWay : Bool) (pktlen : UInt16) (replied : σ → σ) (buf : CArray) (v : RxVars) :
    SpiM σ φ RxVars := do
  let content := copyContent v.content buf
  let rssi ← radioGetRssi S
  let freqError ← radioFreqError S
  if twoWay then do
    let reply := replyPacket buf rssi pktlen.toNat
    radioSend S reply pktlen
    elapse replied
    pure ⟨reply, content, rssi, freqError, v.pckGoodCnt + 1⟩
  else
    pure ⟨buf, content, rssi, freqError, v.pckGoodCnt + 1⟩

/-- The branch for everything else. `radio_read` may have stored a packet all the same. -/
def rxBad (buf : CArray) (v : RxVars) : SpiM σ φ RxVars := do
  radioIdle S
  pure { v with txBuffer := buf }

/-- The loop body of `rx_ber_single`, with the line it prints. -/
def rxIter (twoWay : Bool) (pktlen : UInt16) (received replied : σ → σ) (v : RxVars) :
    SpiM σ φ (RxVars × RxLine) := do
  elapse received
  let d ← radioRead S v.txBuffer (UInt16.ofNat bufferSize)
  let v ← if 0 < d.status then rxGood S twoWay pktlen replied d.buf v else rxBad S d.buf v
  radioReceiveOn S
  pure (v, rxLine v)

/-- What the air does in one iteration, by the ends of the receiver's two waits. -/
structure RxEvent (σ : Type) where
  received : σ → σ
  replied : σ → σ

/-- The loop of `rx_ber_single`, over the iterations that are left: the lines it prints. -/
def rxLoop (twoWay : Bool) (pktlen : UInt16) :
    List (RxEvent σ) → RxVars → SpiM σ φ (RxVars × List RxLine)
  | [], v => pure (v, [])
  | e :: es, v => do
    let r ← rxIter S twoWay pktlen e.received e.replied v
    let rest ← rxLoop twoWay pktlen es r.1
    pure (rest.1, r.2 :: rest.2)

/-- `freq+(chbw*channel)`, as `radio_set_freq` takes it. -/
def channelFreq (freq chbw channel : Int32) : UInt32 := (freq + chbw * channel).toUInt32

/-- What comes before the loop of `tx_ber_single`. -/
def txStart (pktlen : UInt16) (freq : UInt32) : SpiM σ φ Unit := do
  let _ ← setRfPacketLength S pktlen.toUInt8
  radioSetFreq S freq

/-- What comes before the loop of `rx_ber_single`. -/
def rxStart (pktlen : UInt16) (freq : UInt32) : SpiM σ φ Unit := do
  txStart S pktlen freq
  radioReceiveOn S

/-- The events of a loop `for (cc = 0; cc < pktnum; cc++)`. -/
def eventsUpTo {ε : Type} (pktnum : UInt32) (event : ℕ → ε) : List ε :=
  (List.range pktnum.toNat).map event

/-- `rx_ber_single` from the set-up on. Only `pck_good_cnt` is initialised. -/
def rxBurst (twoWay : Bool) (pktlen : UInt16) (pktnum : UInt32) (event : ℕ → RxEvent σ)
    (v : RxVars) : SpiM σ φ (RxVars × List RxLine) :=
  rxLoop S twoWay pktlen (eventsUpTo pktnum event) { v with pckGoodCnt := 0 }

/-- `rx_ber_single`. -/
def rxBerSingle (twoWay : Bool) (pktlen : UInt16) (freq chbw channel : Int32) (pktnum : UInt32)
    (event : ℕ → RxEvent σ) (v : RxVars) : SpiM σ φ (RxVars × List RxLine) := do
  rxStart S pktlen (channelFreq freq chbw channel)
  rxBurst S twoWay pktlen pktnum event v

end Programs

/-! ### The two loops over the data -/

/-- How many of these bytes differ from `rand_data`. -/
def mismatches (buf : CArray) (dds : List ℕ) : ℕ := dds.countP fun dd => buf dd ≠ randData dd

theorem mismatches_cons (buf : CArray) (dd : ℕ) (dds : List ℕ) :
    mismatches buf (dd :: dds)
      = (if buf dd ≠ randData dd then 1 else 0) + mismatches buf dds := by
  rw [mismatches, mismatches, List.countP_cons, Nat.add_comm]
  simp only [decide_eq_true_eq]

theorem mismatches_congr {p q : CArray} {dds : List ℕ} (h : ∀ dd ∈ dds, p dd = q dd) :
    mismatches p dds = mismatches q dds :=
  List.countP_congr fun dd hdd => by rw [h dd hdd]

theorem mem_dataIndices {pktlen dd : ℕ} : dd ∈ dataIndices pktlen ↔ 5 ≤ dd ∧ dd < pktlen := by
  rw [dataIndices, List.mem_range'_1]
  omega

theorem nodup_dataIndices (pktlen : ℕ) : (dataIndices pktlen).Nodup := List.nodup_range'

/-- The sender's loop counts. -/
theorem dataErrors_eq (buf : CArray) (pktlen : ℕ) :
    dataErrors buf pktlen = UInt16.ofNat (mismatches buf (dataIndices pktlen)) := by
  have hloop : ∀ (dds : List ℕ) (n : ℕ),
      dds.foldl (fun n dd => if buf dd ≠ randData dd then n + 1 else n) (UInt16.ofNat n)
        = UInt16.ofNat (n + mismatches buf dds) := by
    intro dds
    induction dds with
    | nil =>
      intro n
      rfl
    | cons dd dds ih =>
      intro n
      have hone : (if buf dd ≠ randData dd then UInt16.ofNat n + 1 else UInt16.ofNat n)
          = UInt16.ofNat (n + if buf dd ≠ randData dd then 1 else 0) := by
        split_ifs
        · exact (UInt16.ofNat_add n 1).symm
        · rfl
      rw [List.foldl_cons, hone, ih, mismatches_cons, Nat.add_assoc]
  have hcount := hloop (dataIndices pktlen) 0
  rwa [Nat.zero_add] at hcount

theorem countAndClean_self (buf : CArray) (dd : ℕ) : countAndClean buf dd dd = randData dd := by
  rw [countAndClean]
  by_cases h : buf dd = randData dd
  · rw [if_neg (not_not.mpr h), h]
  · rw [if_pos h, Function.update_self]

theorem countAndClean_of_ne (buf : CArray) {dd i : ℕ} (hdd : i ≠ dd) (hi : i ≠ 4) :
    countAndClean buf dd i = buf i := by
  rw [countAndClean]
  split_ifs
  · rw [Function.update_of_ne hdd, Function.update_of_ne hi]
  · rfl

theorem countAndClean_four (buf : CArray) {dd : ℕ} (hdd : dd ≠ 4) :
    countAndClean buf dd 4 = buf 4 + UInt8.ofNat (if buf dd ≠ randData dd then 1 else 0) := by
  rw [countAndClean]
  split_ifs
  · rw [Function.update_of_ne (Ne.symm hdd), Function.update_self]
    rfl
  · exact (UInt8.add_zero _).symm

/-- The receiver's loop leaves the other bytes alone, except for the count. -/
theorem foldl_countAndClean_of_notMem {dds : List ℕ} (buf : CArray) {i : ℕ} (hi : i ∉ dds)
    (h4 : i ≠ 4) : dds.foldl countAndClean buf i = buf i := by
  induction dds generalizing buf with
  | nil => rfl
  | cons dd dds ih =>
    obtain ⟨hne, hnotin⟩ := List.ne_and_not_mem_of_not_mem_cons hi
    rw [List.foldl_cons, ih _ hnotin, countAndClean_of_ne buf hne h4]

/-- It cleans. -/
theorem foldl_countAndClean_of_mem {dds : List ℕ} (buf : CArray) {i : ℕ} (hi : i ∈ dds)
    (h4 : i ≠ 4) : dds.foldl countAndClean buf i = randData i := by
  induction dds generalizing buf with
  | nil => exact absurd hi List.not_mem_nil
  | cons dd dds ih =>
    rw [List.foldl_cons]
    by_cases hmem : i ∈ dds
    · exact ih _ hmem
    · rcases List.mem_cons.mp hi with rfl | hin
      · rw [foldl_countAndClean_of_notMem _ hmem h4, countAndClean_self]
      · exact absurd hin hmem

/-- And it counts, each byte before it is cleaned. -/
theorem foldl_countAndClean_four {dds : List ℕ} (buf : CArray) (hnodup : dds.Nodup)
    (h4 : 4 ∉ dds) :
    dds.foldl countAndClean buf 4 = buf 4 + UInt8.ofNat (mismatches buf dds) := by
  induction dds generalizing buf with
  | nil => exact (UInt8.add_zero _).symm
  | cons dd dds ih =>
    obtain ⟨hdd, hnodup⟩ := List.nodup_cons.mp hnodup
    obtain ⟨hne, h4⟩ := List.ne_and_not_mem_of_not_mem_cons h4
    have hrest : mismatches (countAndClean buf dd) dds = mismatches buf dds :=
      mismatches_congr fun i hi => countAndClean_of_ne buf (ne_of_mem_of_not_mem hi hdd)
        (ne_of_mem_of_not_mem hi h4)
    rw [List.foldl_cons, ih _ hnodup h4, hrest, countAndClean_four buf (Ne.symm hne),
      mismatches_cons, UInt8.ofNat_add, UInt8.add_assoc]

end Wise1511
