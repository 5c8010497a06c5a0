import Mathlib.Data.List.TakeWhile
import Mathlib.Data.Nat.Count
import Wise1511.BerTest

/-!
# Waiting for the radio

`radio_wait_for_idle` polls `MARCSTATE` until it reads `IDLE`. It counts ten milliseconds for a
poll, the one that sees `IDLE` included, and gives up once the count has passed `max_hold`. A poll
that finds one of the FIFOs in error flushes it and is not counted.

The program is run against a radio that does as it likes before every poll; a `Poll` is that,
together with the value `MARCSTATE` reads as then. Over the polls the call is a function of the
readings, `waitReadings`, and everything below is about three numbers: `max_hold / 10`, the counted
polls before the first `IDLE`, and the counted polls in all.

* The caller takes `status <= max_hold` to mean that `IDLE` was read. But the poll that reads it is
  counted too, so on the last poll before the timeout `IDLE` is read and reported as a timeout.
* The count is the only clock there is, and polls in error do not advance it. A FIFO that stays in
  error keeps the call for ever.

## Main results

* `run_radioWaitForIdle` — the call as a function of the readings
* `verdictRight_iff` — when the returned value tells `IDLE` from a timeout
* `returnsWithin_iff` — when the call returns
-/

namespace Wise1511

section Programs

variable {σ φ : Type} (S : SpiSlave σ φ)

/-- The variables of `radio_wait_for_idle`. -/
structure WaitVars where
  status : UInt32
  regStatus : UInt8

/-- Neither the loop condition nor the timeout lets the loop go on. -/
def WaitVars.Done (maxHold : UInt16) (v : WaitVars) : Prop :=
  v.regStatus = marcstateIdle ∨ (0 < maxHold ∧ maxHold.toUInt32 < v.status)

instance (maxHold : UInt16) (v : WaitVars) : Decidable (v.Done maxHold) :=
  inferInstanceAs (Decidable (_ ∨ _))

/-- One turn of the loop, after what the device has done by itself. -/
def waitTurn (air : σ → σ) (v : WaitVars) : SpiM σ φ WaitVars := do
  elapse air
  let reading ← readExt S marcstate
  let regStatus := reading &&& 0x1F
  if regStatus = rxFifoErr then do
    let _ ← trxSpiCmdStrobe S sfrx
    pure { v with regStatus := regStatus }
  else if regStatus = txFifoErr then do
    let _ ← trxSpiCmdStrobe S sftx
    pure { v with regStatus := regStatus }
  else
    pure ⟨v.status + 10, regStatus⟩

/-- The loop. It has not returned where it would go on and nothing more is known of the device. -/
def waitLoop (maxHold : UInt16) : List (σ → σ) → WaitVars → SpiM σ φ (Option WaitVars)
  | [], v => pure (if v.Done maxHold then some v else none)
  | air :: airs, v =>
    if v.Done maxHold then
      pure (some v)
    else do
      let v ← waitTurn S air v
      waitLoop maxHold airs v

/-- `radio_wait_for_idle`: its variables when it returns, `status` being what it returns. -/
def radioWaitForIdle (maxHold : UInt16) (airs : List (σ → σ)) : SpiM σ φ (Option WaitVars) :=
  waitLoop S maxHold airs ⟨0, 0⟩

end Programs

/-! ### Readings -/

/-- What the radio does before a poll, and what `MARCSTATE` reads as then. -/
structure Poll where
  air : Chip → Chip
  reading : UInt8
  reads : ∀ c, (air c).regs marcstate.toNat = reading

/-- The reading says `IDLE`. -/
def IsIdle (reading : UInt8) : Prop := reading &&& 0x1F = marcstateIdle

instance (reading : UInt8) : Decidable (IsIdle reading) := inferInstanceAs (Decidable (_ = _))

/-- The reading says that one of the FIFOs is in error. -/
def IsFifoErr (reading : UInt8) : Prop :=
  reading &&& 0x1F = rxFifoErr ∨ reading &&& 0x1F = txFifoErr

instance (reading : UInt8) : Decidable (IsFifoErr reading) := inferInstanceAs (Decidable (_ ∨ _))

/-- One turn of the loop, by the reading. -/
def waitStep (v : WaitVars) (reading : UInt8) : WaitVars :=
  ⟨if IsFifoErr reading then v.status else v.status + 10, reading &&& 0x1F⟩

/-- The loop, by the readings. -/
def waitReadings (maxHold : UInt16) : List UInt8 → WaitVars → Option WaitVars
  | [], v => if v.Done maxHold then some v else none
  | r :: rs, v => if v.Done maxHold then some v else waitReadings maxHold rs (waitStep v r)

/-- What a turn does to the chip: a FIFO in error is flushed. -/
def flush (reading : UInt8) (c : Chip) : Chip :=
  if reading &&& 0x1F = rxFifoErr then c.strobe sfrx
  else if reading &&& 0x1F = txFifoErr then c.strobe sftx
  else c

theorem run_waitTurn (p : Poll) (v : WaitVars) (b : SpiBus Chip Phase) :
    let r := (waitTurn (cc112x liveView) p.air v).run b
    r.1 = waitStep v p.reading ∧ r.2.dev = flush p.reading (p.air b.dev) := by
  obtain ⟨hreading, hdev⟩ :=
    run_readExt liveView (n := 0x73) (by omega) { b with dev := p.air b.dev }
  have hvalue : ((readExt (cc112x liveView) marcstate).run { b with dev := p.air b.dev }).1
      = p.reading := hreading.trans (p.reads b.dev)
  have hdev' : ((readExt (cc112x liveView) marcstate).run { b with dev := p.air b.dev }).2.dev
      = p.air b.dev := hdev
  simp only [waitTurn, SpiM.run_bind, run_elapse, hvalue, waitStep, flush]
  generalize ((readExt (cc112x liveView) marcstate).run { b with dev := p.air b.dev }).2 = b₁
    at hdev'
  by_cases hrx : p.reading &&& 0x1F = rxFifoErr
  · have herr : IsFifoErr p.reading := .inl hrx
    rw [if_pos hrx, if_pos herr, if_pos hrx, SpiM.run_bind, SpiM.run_pure,
      run_trxSpiCmdStrobe_dev liveView (show IsStrobe sfrx by decide), hdev']
    exact ⟨rfl, rfl⟩
  rw [if_neg hrx, if_neg hrx]
  by_cases htx : p.reading &&& 0x1F = txFifoErr
  · have herr : IsFifoErr p.reading := .inr htx
    rw [if_pos htx, if_pos herr, if_pos htx, SpiM.run_bind, SpiM.run_pure,
      run_trxSpiCmdStrobe_dev liveView (show IsStrobe sftx by decide), hdev']
    exact ⟨rfl, rfl⟩
  · have hok : ¬ IsFifoErr p.reading := not_or.mpr ⟨hrx, htx⟩
    rw [if_neg htx, if_neg hok, if_neg htx, SpiM.run_pure]
    exact ⟨rfl, hdev'⟩

/-- **The call is a function of the readings.** -/
theorem run_radioWaitForIdle (maxHold : UInt16) (polls : List Poll) (b : SpiBus Chip Phase) :
    ((radioWaitForIdle (cc112x liveView) maxHold (polls.map Poll.air)).run b).1
      = waitReadings maxHold (polls.map Poll.reading) ⟨0, 0⟩ := by
  suffices hloop : ∀ v : WaitVars, ((waitLoop (cc112x liveView) maxHold (polls.map Poll.air) v).run
      b).1 = waitReadings maxHold (polls.map Poll.reading) v from hloop ⟨0, 0⟩
  induction polls generalizing b with
  | nil =>
    intro v
    rfl
  | cons p polls ih =>
    intro v
    rw [List.map_cons, List.map_cons, waitLoop, waitReadings]
    split_ifs with hdone
    · rw [SpiM.run_pure]
    · rw [SpiM.run_bind, ih, (run_waitTurn p v b).1]

/-! ### Counting polls -/

/-- The polls the watch dog counts. -/
def counted (readings : List UInt8) : ℕ := readings.countP fun r => ¬ IsFifoErr r

/-- The counted polls before the first that reads `IDLE`. -/
def busyPolls (readings : List UInt8) : ℕ := counted (readings.takeWhile fun r => ¬ IsIdle r)

theorem counted_cons (r : UInt8) (rs : List UInt8) :
    counted (r :: rs) = counted rs + if IsFifoErr r then 0 else 1 := by
  rw [counted, counted, List.countP_cons]
  by_cases h : IsFifoErr r <;> simp [h]

theorem busyPolls_of_isIdle {r : UInt8} (h : IsIdle r) (rs : List UInt8) :
    busyPolls (r :: rs) = 0 := by
  simp [busyPolls, counted, h]

theorem busyPolls_of_not_isIdle {r : UInt8} (h : ¬ IsIdle r) (rs : List UInt8) :
    busyPolls (r :: rs) = busyPolls rs + if IsFifoErr r then 0 else 1 := by
  rw [busyPolls, List.takeWhile_cons_of_pos (by simpa using h), counted_cons, busyPolls]

theorem busyPolls_le_counted (rs : List UInt8) : busyPolls rs ≤ counted rs :=
  (List.takeWhile_sublist _).countP_le

theorem busyPolls_eq_counted {rs : List UInt8} (h : ¬ ∃ r ∈ rs, IsIdle r) :
    busyPolls rs = counted rs := by
  rw [busyPolls, List.takeWhile_eq_self_iff.mpr]
  intro r hr
  exact decide_eq_true fun hidle => h ⟨r, hr, hidle⟩

/-- A poll that reads `IDLE` is a counted one. -/
theorem not_isFifoErr_of_isIdle {r : UInt8} (h : IsIdle r) : ¬ IsFifoErr r := by
  rintro (hrx | htx)
  · exact absurd (h.symm.trans hrx) (by decide)
  · exact absurd (h.symm.trans htx) (by decide)

/-! ### How the loop ends -/

/-- The variables after `m` counted polls. -/
def afterPolls (m : ℕ) (regStatus : UInt8) : WaitVars := ⟨UInt32.ofNat (10 * m), regStatus⟩

/-- The watch dog in terms of counted polls. -/
theorem toUInt32_lt_status_iff {maxHold : UInt16} {m : ℕ} (hm : m ≤ maxHold.toNat / 10 + 1)
    (r : UInt8) : maxHold.toUInt32 < (afterPolls m r).status ↔ maxHold.toNat / 10 < m := by
  have hmax := maxHold.toNat_lt
  have hstatus : (afterPolls m r).status.toNat = 10 * m := by
    show (UInt32.ofNat (10 * m)).toNat = 10 * m
    rw [UInt32.toNat_ofNat']
    omega
  rw [UInt32.lt_iff_toNat_lt, hstatus, UInt16.toNat_toUInt32]
  omega

theorem waitStep_afterPolls (m : ℕ) (r₀ r : UInt8) :
    waitStep (afterPolls m r₀) r = afterPolls (m + if IsFifoErr r then 0 else 1) (r &&& 0x1F) := by
  rw [waitStep]
  split_ifs
  · rfl
  · show (⟨UInt32.ofNat (10 * m) + UInt32.ofNat 10, _⟩ : WaitVars) = _
    rw [← UInt32.ofNat_add]
    rfl

variable {maxHold : UInt16}

/-- Up to the watch dog's limit, and short of `IDLE`, the loop goes on. -/
theorem not_done {m : ℕ} (hm : m ≤ maxHold.toNat / 10) {r₀ : UInt8}
    (hr₀ : r₀ ≠ marcstateIdle) : ¬ (afterPolls m r₀).Done maxHold := by
  rintro (hidle | ⟨-, hlt⟩)
  · exact hr₀ hidle
  · exact absurd ((toUInt32_lt_status_iff (by omega) r₀).mp hlt) (by omega)

/-- Past it the loop is over, whatever comes. -/
theorem waitReadings_of_lt (hpos : 0 < maxHold) {m : ℕ} (hm : m = maxHold.toNat / 10 + 1)
    (r₀ : UInt8) (rs : List UInt8) :
    waitReadings maxHold rs (afterPolls m r₀) = some (afterPolls m r₀) := by
  have hdone : (afterPolls m r₀).Done maxHold :=
    .inr ⟨hpos, (toUInt32_lt_status_iff hm.le r₀).mpr (by omega)⟩
  cases rs with
  | nil => exact if_pos hdone
  | cons r rs => exact if_pos hdone

/-- `IDLE` is read in time, and its own poll is counted with the rest. -/
theorem waitReadings_idle {m : ℕ} {r₀ : UInt8} (hr₀ : r₀ ≠ marcstateIdle) {rs : List UInt8}
    (hidle : ∃ r ∈ rs, IsIdle r) (hm : m + busyPolls rs ≤ maxHold.toNat / 10) :
    waitReadings maxHold rs (afterPolls m r₀)
      = some (afterPolls (m + busyPolls rs + 1) marcstateIdle) := by
  induction rs generalizing m r₀ with
  | nil => simp at hidle
  | cons r rs ih =>
    rw [waitReadings, if_neg (not_done (by omega) hr₀), waitStep_afterPolls]
    by_cases hr : IsIdle r
    · have hdone : (afterPolls (m + 1) marcstateIdle).Done maxHold := .inl rfl
      rw [busyPolls_of_isIdle hr, if_neg (not_isFifoErr_of_isIdle hr), show r &&& 0x1F = _ from hr]
      cases rs with
      | nil => exact if_pos hdone
      | cons _ _ => exact if_pos hdone
    · obtain ⟨r', hmem, hr'⟩ := hidle
      have htail : ∃ r ∈ rs, IsIdle r := by
        rcases List.mem_cons.mp hmem with rfl | hmem
        · exact absurd hr' hr
        · exact ⟨r', hmem, hr'⟩
      rw [busyPolls_of_not_isIdle hr] at hm ⊢
      rw [ih hr htail (by omega)]
      congr 2
      omega

/-- The limit is passed before `IDLE` is read. -/
theorem waitReadings_timeout (hpos : 0 < maxHold) {m : ℕ} {r₀ : UInt8} (hr₀ : r₀ ≠ marcstateIdle)
    {rs : List UInt8} (hm : m ≤ maxHold.toNat / 10 + 1)
    (hbusy : maxHold.toNat / 10 < m + busyPolls rs) :
    ∃ r ≠ marcstateIdle,
      waitReadings maxHold rs (afterPolls m r₀) = some (afterPolls (maxHold.toNat / 10 + 1) r) := by
  by_cases hover : m = maxHold.toNat / 10 + 1
  · exact ⟨r₀, hr₀, by rw [waitReadings_of_lt hpos hover, hover]⟩
  induction rs generalizing m r₀ with
  | nil => exact absurd hbusy (by simp [busyPolls, counted]; omega)
  | cons r rs ih =>
    rw [waitReadings, if_neg (not_done (by omega) hr₀), waitStep_afterPolls]
    by_cases hr : IsIdle r
    · rw [busyPolls_of_isIdle hr] at hbusy
      omega
    · rw [busyPolls_of_not_isIdle hr] at hbusy
      generalize hc : m + (if IsFifoErr r then 0 else 1) = m'
      have hm' : m' ≤ maxHold.toNat / 10 + 1 := by split_ifs at hc <;> omega
      by_cases hover' : m' = maxHold.toNat / 10 + 1
      · exact ⟨_, hr, by rw [waitReadings_of_lt hpos hover', hover']⟩
      · exact ih hr hm' (by omega) hover'

/-- Neither has happened yet. -/
theorem waitReadings_none {m : ℕ} {r₀ : UInt8} (hr₀ : r₀ ≠ marcstateIdle) {rs : List UInt8}
    (hidle : ¬ ∃ r ∈ rs, IsIdle r) (hm : m + counted rs ≤ maxHold.toNat / 10) :
    waitReadings maxHold rs (afterPolls m r₀) = none := by
  induction rs generalizing m r₀ with
  | nil => exact if_neg (not_done (by omega) hr₀)
  | cons r rs ih =>
    rw [counted_cons] at hm
    rw [waitReadings, if_neg (not_done (by omega) hr₀), waitStep_afterPolls]
    refine ih (fun hr => hidle ⟨r, List.mem_cons_self, hr⟩) ?_ (by omega)
    rintro ⟨r', hmem, hr'⟩
    exact hidle ⟨r', List.mem_cons_of_mem r hmem, hr'⟩

/-- **How a call ends**: by the watch dog, by `IDLE`, or not yet. -/
theorem waitReadings_cases (hpos : 0 < maxHold) (rs : List UInt8) :
    (maxHold.toNat / 10 < busyPolls rs ∧ ∃ r ≠ marcstateIdle,
        waitReadings maxHold rs ⟨0, 0⟩ = some (afterPolls (maxHold.toNat / 10 + 1) r)) ∨
      (busyPolls rs ≤ maxHold.toNat / 10 ∧ (∃ r ∈ rs, IsIdle r) ∧
        waitReadings maxHold rs ⟨0, 0⟩ = some (afterPolls (busyPolls rs + 1) marcstateIdle)) ∨
      (counted rs ≤ maxHold.toNat / 10 ∧ (¬ ∃ r ∈ rs, IsIdle r) ∧
        waitReadings maxHold rs ⟨0, 0⟩ = none) := by
  have hr₀ : (0 : UInt8) ≠ marcstateIdle := by decide
  have hstart : (⟨0, 0⟩ : WaitVars) = afterPolls 0 0 := rfl
  rw [hstart]
  rcases Nat.lt_or_ge (maxHold.toNat / 10) (busyPolls rs) with hbusy | hbusy
  · rw [← Nat.zero_add (busyPolls rs)] at hbusy
    refine .inl ⟨?_, waitReadings_timeout hpos hr₀ (Nat.zero_le _) hbusy⟩
    rwa [Nat.zero_add] at hbusy
  by_cases hidle : ∃ r ∈ rs, IsIdle r
  · rw [waitReadings_idle hr₀ hidle (by omega), Nat.zero_add]
    exact .inr (.inl ⟨hbusy, hidle, rfl⟩)
  · rw [busyPolls_eq_counted hidle] at hbusy
    exact .inr (.inr ⟨hbusy, hidle, waitReadings_none hr₀ hidle (by omega)⟩)

/-! ### The verdict -/

/-- The returned value tells `IDLE` from a timeout, in both directions. -/
def VerdictRight (maxHold : UInt16) (returned : Option WaitVars) : Prop :=
  ∀ v ∈ returned, (v.status ≤ maxHold.toUInt32 ↔ v.regStatus = marcstateIdle) ∧
    (maxHold.toUInt32 < v.status ↔ v.regStatus ≠ marcstateIdle)

/-- One comparison decides both directions. -/
theorem verdictRight_some_iff {m : ℕ} (hm : m ≤ maxHold.toNat / 10 + 1)
    (r : UInt8) : VerdictRight maxHold (some (afterPolls m r)) ↔
      (maxHold.toNat / 10 < m ↔ r ≠ marcstateIdle) := by
  have hle : (afterPolls m r).status ≤ maxHold.toUInt32 ↔ ¬ maxHold.toNat / 10 < m := by
    rw [← toUInt32_lt_status_iff hm r, UInt32.not_lt]
  constructor
  · intro h
    rw [← toUInt32_lt_status_iff hm r]
    exact (h _ rfl).2
  · rintro h v ⟨⟩
    refine ⟨?_, ?_⟩
    · rw [hle, h, not_not]
      rfl
    · rw [toUInt32_lt_status_iff hm r, h]
      rfl

theorem verdictRight_waitReadings_iff (hpos : 0 < maxHold) (rs : List UInt8) :
    VerdictRight maxHold (waitReadings maxHold rs ⟨0, 0⟩) ↔
      ¬ ((∃ r ∈ rs, IsIdle r) ∧ busyPolls rs = maxHold.toNat / 10) := by
  rcases waitReadings_cases hpos rs with ⟨hbusy, r, hr, hrun⟩ | ⟨hbusy, hidle, hrun⟩ |
    ⟨-, hidle, hrun⟩
  · rw [hrun, verdictRight_some_iff le_rfl]
    refine iff_of_true (iff_of_true (by omega) hr) ?_
    rintro ⟨-, heq⟩
    omega
  · rw [hrun, verdictRight_some_iff (by omega)]
    simp only [hidle, ne_eq, not_true_eq_false, iff_false, true_and]
    omega
  · rw [hrun]
    refine iff_of_true ?_ fun h => hidle h.1
    rintro v ⟨⟩

/-- **The verdict is right except at the limit.** The returned value tells `IDLE` from a timeout
unless `IDLE` is read after exactly `max_hold / 10` counted polls. -/
theorem verdictRight_iff (hpos : 0 < maxHold) (polls : List Poll)
    (b : SpiBus Chip Phase) :
    VerdictRight maxHold
        ((radioWaitForIdle (cc112x liveView) maxHold (polls.map Poll.air)).run b).1 ↔
      ¬ ((∃ p ∈ polls, IsIdle p.reading) ∧
        busyPolls (polls.map Poll.reading) = maxHold.toNat / 10) := by
  rw [run_radioWaitForIdle, verdictRight_waitReadings_iff hpos]
  simp only [List.mem_map, exists_exists_and_eq_and]

theorem Chip.regs_writeReg (c : Chip) (addr : ℕ) (b : UInt8) :
    (c.writeReg addr b).regs addr = b := by
  show Function.update c.regs addr b addr = b
  exact Function.update_self _ _ _

/-- The radio does nothing but show this reading. -/
def Poll.of (reading : UInt8) : Poll where
  air c := c.writeReg marcstate.toNat reading
  reading := reading
  reads c := c.regs_writeReg marcstate.toNat reading

theorem verdictRight_at_once : (0 : UInt16) < 8000 ∧
    VerdictRight 8000 ((radioWaitForIdle (cc112x liveView) 8000
      ([Poll.of 0x0D, Poll.of rxFifoErr, Poll.of marcstateIdle].map Poll.air)).run resetBus).1 :=
  ⟨by decide, (verdictRight_iff (by decide) _ _).mpr (by decide)⟩

/-- The radio is in `RX` at the first poll and in `IDLE` at the second: with `max_hold` at 10, the
call reads `IDLE` and returns 20. -/
theorem not_verdictRight_at_limit :
    ¬ VerdictRight 10 ((radioWaitForIdle (cc112x liveView) 10
      ([Poll.of 0x0D, Poll.of marcstateIdle].map Poll.air)).run resetBus).1 := by
  rw [run_radioWaitForIdle, verdictRight_waitReadings_iff (by decide)]
  decide

/-! ### Returning -/

/-- The call has returned after `N` polls. -/
def ReturnsWithin (maxHold : UInt16) (polls : ℕ → Poll) (b : SpiBus Chip Phase) (N : ℕ) : Prop :=
  ((radioWaitForIdle (cc112x liveView) maxHold ((List.range N).map fun i => (polls i).air)).run
    b).1.isSome = true

/-- How many of the first `N` polls find a FIFO in error. -/
def fifoErrs (polls : ℕ → Poll) (N : ℕ) : ℕ := Nat.count (fun i => IsFifoErr (polls i).reading) N

theorem isSome_waitReadings_iff (hpos : 0 < maxHold) (rs : List UInt8) :
    (waitReadings maxHold rs ⟨0, 0⟩).isSome = true ↔
      (∃ r ∈ rs, IsIdle r) ∨ maxHold.toNat / 10 < counted rs := by
  rcases waitReadings_cases hpos rs with ⟨hbusy, r, -, hrun⟩ | ⟨-, hidle, hrun⟩ |
    ⟨hcount, hidle, hrun⟩
  · rw [hrun]
    exact iff_of_true rfl (.inr (hbusy.trans_le (busyPolls_le_counted rs)))
  · rw [hrun]
    exact iff_of_true rfl (.inl hidle)
  · rw [hrun]
    exact iff_of_false Bool.false_ne_true (not_or.mpr ⟨hidle, not_lt.mpr hcount⟩)

/-- Every poll is counted or finds a FIFO in error. -/
theorem counted_add_fifoErrs (polls : ℕ → Poll) (N : ℕ) :
    counted ((List.range N).map fun i => (polls i).reading) + fifoErrs polls N = N := by
  have hlength := List.length_eq_countP_add_countP (l := (List.range N).map fun i =>
    (polls i).reading) fun r => decide (IsFifoErr r)
  rw [List.length_map, List.length_range, List.countP_map] at hlength
  rw [counted, fifoErrs, Nat.count, Nat.add_comm]
  simpa [Function.comp_def] using hlength.symm

theorem returnsWithin_iff_counted (hpos : 0 < maxHold) (polls : ℕ → Poll)
    (b : SpiBus Chip Phase) (N : ℕ) : ReturnsWithin maxHold polls b N ↔
      (∃ i < N, IsIdle (polls i).reading) ∨ maxHold.toNat / 10 + fifoErrs polls N < N := by
  have hair : (List.range N).map (fun i => (polls i).air)
      = ((List.range N).map polls).map Poll.air := by rw [List.map_map]; rfl
  have hreading : ((List.range N).map polls).map Poll.reading
      = (List.range N).map fun i => (polls i).reading := by rw [List.map_map]; rfl
  have hsum := counted_add_fifoErrs polls N
  rw [ReturnsWithin, hair, run_radioWaitForIdle, isSome_waitReadings_iff hpos, hreading]
  refine or_congr ?_ (by omega)
  simp only [List.mem_map, List.mem_range, exists_exists_and_eq_and]

/-- **The call returns exactly when `IDLE` or enough counted polls come.** Within `N` polls it has
returned exactly when `IDLE` is among them or more than `max_hold / 10` of them find no FIFO in
error; in particular, `max_hold / 10 + E + 1` polls are enough when at most `E` of them find a FIFO
in error. It returns at all exactly when this comes to hold of some number of polls. -/
theorem returnsWithin_iff (hpos : 0 < maxHold) (polls : ℕ → Poll)
    (b : SpiBus Chip Phase) :
    (∀ N, ReturnsWithin maxHold polls b N ↔
      (∃ i < N, IsIdle (polls i).reading) ∨ maxHold.toNat / 10 + fifoErrs polls N < N) ∧
    (∀ E, fifoErrs polls (maxHold.toNat / 10 + E + 1) ≤ E →
      ReturnsWithin maxHold polls b (maxHold.toNat / 10 + E + 1)) ∧
    ((∃ N, ReturnsWithin maxHold polls b N) ↔
      (∃ i, IsIdle (polls i).reading) ∨ ∃ N, maxHold.toNat / 10 + fifoErrs polls N < N) := by
  have hN := returnsWithin_iff_counted hpos polls b
  refine ⟨hN, fun E hE => (hN _).mpr (.inr (by omega)), ?_, ?_⟩
  · rintro ⟨N, h⟩
    rcases (hN N).mp h with ⟨i, -, hi⟩ | hcount
    · exact .inl ⟨i, hi⟩
    · exact .inr ⟨N, hcount⟩
  · rintro (⟨i, hi⟩ | ⟨N, hcount⟩)
    · exact ⟨i + 1, (hN _).mpr (.inl ⟨i, i.lt_succ_self, hi⟩)⟩
    · exact ⟨N, (hN N).mpr (.inr hcount)⟩

theorem returnsWithin_first : (0 : UInt16) < 8000 ∧
    ReturnsWithin 8000 (fun _ => Poll.of marcstateIdle) resetBus 1 :=
  ⟨by decide, ((returnsWithin_iff (by decide) _ _).1 1).mpr (.inl ⟨0, by decide, by decide⟩)⟩

/-- The RX FIFO stays in error: no number of polls is enough, whatever `max_hold` is. -/
theorem not_returnsWithin_rxFifoErr :
    ¬ ∃ N, ReturnsWithin 8000 (fun _ => Poll.of rxFifoErr) resetBus N := by
  rintro ⟨N, h⟩
  have hall : fifoErrs (fun _ => Poll.of rxFifoErr) N = N := by
    rw [fifoErrs, Nat.count_iff_forall]
    intro i _
    decide
  rcases (returnsWithin_iff_counted (by decide) _ _ N).mp h with ⟨i, -, hi⟩ | hcount
  · exact absurd hi (by decide)
  · omega

end Wise1511
