import Wise1511.DeviceId
import Wise1511.Lib.Binary32
import Wise1511.MenuSessions
import Wise1511.PinTest

/-!
# The input and output menus

`IOTest_Menu` of `IoTest.cpp` and the menus inside it, those of `GPIOTest.cpp`, `I2CTest.cpp`,
`SPITest.cpp`, `PWMADCTest.cpp` and `PinTest.cpp`. They share nothing but the board: each file has
its own globals, and what it does to the board are calls of the drivers. A session leaves a log of
these calls, in order. Pins go by their numbers in the board's `PinNames.h`, so that the pin test,
which builds a pin from what is typed, may well name one that another file drives.

The index that a menu passes on picks a pin, a port or an element of an array, and in places the
source has no branch for an index that it does not expect. The log has `undefined` there.

## Main definitions

* `Event` — the calls of the drivers
* `IoState` — the globals of the files, and the log
* `ioTestMenu` — the menus

## Main results

* `legible_ioTestMenu` — their screens can be read
* `pinTestMenu_actions` — the pin test is the machine of `PinTest`
-/

namespace Wise1511

namespace IoTest

/-! ### Pins -/

/-- `PinName`: the port in the high digit, the number in the low one. -/
abbrev PinName := ℕ

/-- `GPIO1` to `GPIO8`: PD_12 to PD_15 and PE_0 to PE_3. -/
def gpioPins : List PinName := [0x3C, 0x3D, 0x3E, 0x3F, 0x40, 0x41, 0x42, 0x43]

/-- PE_12. -/
def spiCs0 : PinName := 0x4C

/-- PA_4. -/
def spiCs1 : PinName := 0x04

/-- PB_9. -/
def spiRfCs : PinName := 0x19

/-- The selects of the two flash chips and of the radio. -/
def selectPins : List PinName := [spiCs0, spiCs1, spiRfCs]

/-! ### The board, as the drivers see it -/

/-- `spi1` and `spirf`. -/
inductive SpiPort where
  | spi1
  | spirf
  deriving DecidableEq

/-- A call of a driver. -/
inductive Event where
  /-- `DigitalOut gpo(pin)`: the pin becomes an output, and is low. -/
  | gpioInit (pin : PinName)
  | gpioWrite (pin : PinName) (value : Bool)
  | spiFormat (port : SpiPort) (bits mode : ℕ)
  | spiFrequency (port : SpiPort) (hz : ℕ)
  | spiWrite (port : SpiPort) (value : UInt8)
  | i2cFrequency (hz : ℕ)
  | i2cWrite (address : ℕ) (data : List UInt8)
  | i2cRead (address length : ℕ)
  | pwmPeriodMs (ms : ℤ)
  | pwmWrite (value : Float32)
  | adcRead (pin : PinName)
  /-- A pointer that was never set, or an element outside of its array. -/
  | undefined

/-- The globals of `I2CTest.cpp`. -/
structure I2cGlobals where
  gBitRate : ℤ
  gSlaveAddress : UInt8
  gOffsetAddress : UInt8

/-- The globals of `SPITest.cpp`, with `SPI_MAX_DEVICES` elements. -/
structure SpiGlobals where
  gBitRate : Fin 3 → ℤ
  gOffsetAddress : Fin 3 → UInt8

/-- The globals of `PWMADCTest.cpp`. -/
structure PwmGlobals where
  gPeriod : ℤ
  gDutyCycle : Float32

/-- All globals, and the calls made so far. -/
structure IoState where
  i2c : I2cGlobals
  spi : SpiGlobals
  pwm : PwmGlobals
  pin : PinGlobals
  log : List Event

/-- The initial values. -/
def ioStart : IoState where
  i2c := ⟨0, 0x40, 0xFE⟩
  spi := ⟨fun _ => 0, fun i => if i = 2 then 0x8F else 0x9F⟩
  pwm := ⟨10, 0.5⟩
  pin := pinStart
  log := []

namespace IoState

/-- Make calls. -/
def emit (s : IoState) (events : List Event) : IoState := { s with log := s.log ++ events }

@[simp] theorem emit_i2c (s : IoState) (events : List Event) : (s.emit events).i2c = s.i2c := rfl

@[simp] theorem emit_spi (s : IoState) (events : List Event) : (s.emit events).spi = s.spi := rfl

@[simp] theorem emit_pwm (s : IoState) (events : List Event) : (s.emit events).pwm = s.pwm := rfl

@[simp] theorem emit_pin (s : IoState) (events : List Event) : (s.emit events).pin = s.pin := rfl

@[simp] theorem emit_log (s : IoState) (events : List Event) :
    (s.emit events).log = s.log ++ events := rfl

end IoState

/-! ### Kinds of handlers -/

/-- A handler that takes no line. -/
def ioAct (ret : ℤ) (f : IoState → IoState) : Action IoState := .prim {
  run := fun _ s lines => ⟨[], some (ret, f s, lines)⟩
  suffix := by
    rintro index s lines ret s' rest ⟨⟩
    exact List.suffix_rfl }

/-- A handler that takes a number by `GetInt_wait`. -/
def ioInt (f : ℤ → IoState → IoState) : Action IoState := .prim {
  run := fun _ s lines =>
    match lines with
    | line :: rest => ⟨[], some (0, f (strtol line) s, rest)⟩
    | [] => ⟨[], none⟩
  suffix := by
    intro index s lines ret s' rest h
    cases lines with
    | nil => cases h
    | cons line lines =>
      cases h
      exact List.suffix_cons line _ }

/-- A handler that takes a letter and a number. -/
def ioCharInt (f : Line → Line → IoState → IoState) : Action IoState := .prim {
  run := fun _ s lines =>
    match lines with
    | first :: second :: rest => ⟨[], some (0, f first second s, rest)⟩
    | _ => ⟨[], none⟩
  suffix := by
    intro index s lines ret s' rest h
    match lines with
    | [] => cases h
    | [_] => cases h
    | first :: second :: lines =>
      cases h
      exact (List.suffix_cons second _).trans (List.suffix_cons first _) }

section Rules

variable {J P Q : IoState → Prop}

theorem sat_ioAct {ret : ℤ} {f : IoState → IoState} (hstart : ∀ s, P s → J s)
    (hkeep : ∀ s, P s → Q (f s)) (hend : ∀ s, Q s → J s) : Action.Sat J P (ioAct ret f) Q := by
  refine Action.Sat.prim hstart ?_
  rintro index s lines ret s' rest hs ⟨⟩
  exact ⟨hend _ (hkeep s hs), hkeep s hs⟩

theorem sat_ioInt {f : ℤ → IoState → IoState} (hstart : ∀ s, P s → J s)
    (hkeep : ∀ line s, P s → P (f (strtol line) s)) : Action.Sat J P (ioInt f) P := by
  refine Action.Sat.prim hstart ?_
  intro index s lines ret s' rest hs hresult
  cases lines with
  | nil => cases hresult
  | cons line lines =>
    cases hresult
    exact ⟨hstart _ (hkeep _ s hs), hkeep _ s hs⟩

theorem sat_ioCharInt {f : Line → Line → IoState → IoState} (hstart : ∀ s, P s → J s)
    (hkeep : ∀ first second s, P s → P (f first second s)) : Action.Sat J P (ioCharInt f) P := by
  refine Action.Sat.prim hstart ?_
  intro index s lines ret s' rest hs hresult
  match lines with
  | [] => cases hresult
  | [_] => cases hresult
  | first :: second :: lines =>
    cases hresult
    exact ⟨hstart _ (hkeep _ _ s hs), hkeep _ _ s hs⟩

end Rules

/-! ### GPIOTest.cpp -/

/-- `GPIO_switch`, where it returns. -/
def gpioSwitch (index : ℤ) : Option PinName :=
  if 1 ≤ index ∧ index ≤ 8 then gpioPins[index.toNat - 1]? else none

/-- What `GPIO_High` and `GPIO_Low` do. -/
def gpioDrive (value : Bool) (index : ℤ) (s : IoState) : IoState :=
  match gpioSwitch index with
  | some pin => s.emit [.gpioWrite pin value]
  | none => s.emit [.undefined]

/-- `GPIO_High`. -/
def gpioHigh : ℤ → IoState → IoState := gpioDrive true

/-- `GPIO_Low`. -/
def gpioLow : ℤ → IoState → IoState := gpioDrive false

/-- `GPIO_Menu`. Its `Read` does nothing but show the level in its label. -/
def gpioMenu (index : ℤ) : Action IoState :=
  .list 12 (literal "GPIO Function") [
    ⟨literal "Read", index, some fun _ => ioAct 0 id⟩,
    ⟨literal "High", index, some fun index => ioAct 0 (gpioHigh index)⟩,
    ⟨literal "Low", index, some fun index => ioAct 0 (gpioLow index)⟩]

/-- `GPIOTest_Menu`. -/
def gpioTestMenu (_index : ℤ) : Action IoState :=
  .andThen (ioAct 0 fun s => s.emit (gpioPins.map (.gpioWrite · false))) fun _ =>
    .list 11 (literal "GPIO Test") [
      ⟨literal "GPIO_1", 1, some gpioMenu⟩,
      ⟨literal "GPIO_2", 2, some gpioMenu⟩,
      ⟨literal "GPIO_3", 3, some gpioMenu⟩,
      ⟨literal "GPIO_4", 4, some gpioMenu⟩,
      ⟨literal "GPIO_5", 5, some gpioMenu⟩,
      ⟨literal "GPIO_6", 6, some gpioMenu⟩,
      ⟨literal "GPIO_7", 7, some gpioMenu⟩,
      ⟨literal "GPIO_8", 8, some gpioMenu⟩]

/-! ### I2CTest.cpp -/

/-- The range test of both functions `BitRate`. -/
def bitRateOf (v : ℤ) : ℤ := if v < 0 ∨ 1 < v then 0 else v

/-- `BitRate`. -/
def i2cBitRate (v : ℤ) (s : IoState) : IoState :=
  { s with i2c := { s.i2c with gBitRate := bitRateOf v } }

/-- `SlaveAddress`. -/
def i2cSlaveAddress (v : ℤ) (s : IoState) : IoState :=
  { s with i2c := { s.i2c with gSlaveAddress := UInt8.ofInt v } }

/-- `OffsetAddress`. -/
def i2cOffsetAddress (v : ℤ) (s : IoState) : IoState :=
  { s with i2c := { s.i2c with gOffsetAddress := UInt8.ofInt v } }

/-- `Read`: the offset is written, and eight bytes are read, at the address of the slave. -/
def i2cRead (s : IoState) : IoState :=
  s.emit [.i2cFrequency (if s.i2c.gBitRate = 1 then 400000 else 100000),
    .i2cWrite (s.i2c.gSlaveAddress.toNat * 2) [s.i2c.gOffsetAddress],
    .i2cRead (s.i2c.gSlaveAddress.toNat * 2) 8]

/-- `I2CTest_Menu`. -/
def i2cTestMenu (index : ℤ) : Action IoState :=
  .list 13 (literal "I2C Test") [
    ⟨literal "BitRate", index, some fun _ => ioInt i2cBitRate⟩,
    ⟨literal "Slave Address", index, some fun _ => ioInt i2cSlaveAddress⟩,
    ⟨literal "Offset Address", index, some fun _ => ioInt i2cOffsetAddress⟩,
    ⟨literal "Read", index, some fun _ => ioAct 1 i2cRead⟩]

/-! ### SPITest.cpp -/

/-- An index into the globals, where there is such an element. -/
def spiIndex (index : ℤ) : Option (Fin 3) :=
  if h : 0 ≤ index ∧ index < 3 then some ⟨index.toNat, by omega⟩ else none

/-- Do something for an index. -/
def atSpiIndex (index : ℤ) (f : Fin 3 → IoState → IoState) (s : IoState) : IoState :=
  match spiIndex index with
  | some i => f i s
  | none => s.emit [.undefined]

/-- The `spi` of `switch(index)`. -/
def spiPort (i : Fin 3) : SpiPort := if i = 2 then .spirf else .spi1

/-- And the `cs`. -/
def spiCs (i : Fin 3) : PinName := if i = 0 then spiCs0 else if i = 1 then spiCs1 else spiRfCs

/-- `BitRate`. -/
def spiBitRate (index v : ℤ) : IoState → IoState := atSpiIndex index fun i s =>
  { s with spi := { s.spi with gBitRate := Function.update s.spi.gBitRate i (bitRateOf v) } }

/-- `OffsetAddress`. A `char` has no sign here, and its range test never fails. -/
def spiOffsetAddress (index v : ℤ) : IoState → IoState := atSpiIndex index fun i s =>
  { s with spi :=
    { s.spi with gOffsetAddress := Function.update s.spi.gOffsetAddress i (UInt8.ofInt v) } }

/-- A frame on a port. -/
def frameEvents (port : SpiPort) (hz : ℕ) (cs : PinName) (bytes : List UInt8) : List Event :=
  [.spiFormat port 8 0, .spiFrequency port hz, .gpioWrite cs false] ++
    bytes.map (.spiWrite port) ++ [.gpioWrite cs true]

/-- The rate of `switch(gBitRate[index])`. -/
def spiHz (g : SpiGlobals) (i : Fin 3) : ℕ := if g.gBitRate i = 1 then 100000 else 1000000

/-- What the functions that read do, for a frame of theirs. -/
def spiFrame (bytes : SpiGlobals → Fin 3 → List UInt8) (index : ℤ) : IoState → IoState :=
  atSpiIndex index fun i s =>
    s.emit (frameEvents (spiPort i) (spiHz s.spi i) (spiCs i) (bytes s.spi i))

/-- The command of `Read`. -/
def readFrame (offset : UInt8) : List UInt8 := [offset, 0x00, 0x00, 0x00, 0x00]

/-- `Read`. -/
def spiRead : ℤ → IoState → IoState := spiFrame fun g i => readFrame (g.gOffsetAddress i)

/-- `Read_RF_ID`. -/
def spiReadRfId : ℤ → IoState → IoState := spiFrame fun _ _ => readRfIdFrame

/-- The entries for the flash chips. -/
def flashEntries (index : ℤ) : List (Entry (ℤ → Action IoState)) := [
  ⟨literal "BitRate", index, some fun index => ioInt (spiBitRate index)⟩,
  ⟨literal "Offset Address", index, some fun index => ioInt (spiOffsetAddress index)⟩,
  ⟨literal "Read", index, some fun index => ioAct 1 (spiRead index)⟩]

/-- `SPITest_Menu`. -/
def spiTestMenu (index : ℤ) : Action IoState :=
  if index < 0 ∨ 3 ≤ index then .constant 0
  else
    .andThen (ioAct 0 fun s => s.emit (selectPins.map (.gpioWrite · true))) fun _ =>
      if index < 2 then
        .list 14 (if index = 0 then literal "SPI_CS0 test" else literal "SPI_CS1 test")
          (flashEntries index)
      else
        .list 14 (literal "SPI_RF test") (flashEntries index ++ [
          ⟨literal "Read_RF_ID", index, some fun index => ioAct 1 (spiReadRfId index)⟩])

/-! ### PWMADCTest.cpp -/

/-- The two calls at the end of `Period`, of `DutyCycle` and of `PWMTest_Menu`. -/
def pwmDrive (s : IoState) : IoState :=
  s.emit [.pwmPeriodMs s.pwm.gPeriod, .pwmWrite s.pwm.gDutyCycle]

/-- `Period`. -/
def pwmPeriod (v : ℤ) (s : IoState) : IoState :=
  pwmDrive { s with pwm := { s.pwm with gPeriod := if v < 0 then 10 else v } }

/-- The value of `gDutyCycle` after a number is typed. -/
def dutyCycleOf (v : ℤ) : Float32 :=
  let gDutyCycle := Binary32.ofInt v
  (if gDutyCycle < Binary32.ofInt 0 then Binary32.ofInt 50 else gDutyCycle) / Binary32.ofInt 100

/-- `DutyCycle`. -/
def pwmDutyCycle (v : ℤ) (s : IoState) : IoState :=
  pwmDrive { s with pwm := { s.pwm with gDutyCycle := dutyCycleOf v } }

/-- `PWMTest_Menu`. -/
def pwmTestMenu (_index : ℤ) : Action IoState :=
  .andThen (ioAct 0 pwmDrive) fun _ =>
    .list 15 (literal "PWM Test") [
      ⟨literal "Period", 0, some fun _ => ioInt pwmPeriod⟩,
      ⟨literal "Duty-Cycle", 0, some fun _ => ioInt pwmDutyCycle⟩]

/-- The `switch(index)` of `Read`: ADC0 is PA_0, ADC2 PC_4, ADC3 PC_5 and ADC4 PA_1. -/
def adcPin (index : ℤ) : Option PinName :=
  if index = 0 then some 0x00
  else if index = 2 then some 0x24
  else if index = 3 then some 0x25
  else if index = 4 then some 0x01
  else none

/-- `Read`. Here an index that is not expected is told apart. -/
def adcRead (index : ℤ) : Action IoState :=
  match adcPin index with
  | some pin => ioAct 1 fun s => s.emit [.adcRead pin]
  | none => ioAct 0 id

/-- `ADCTestByIndex`. -/
def adcTestByIndex (index : ℤ) : Action IoState :=
  .list 17 (literal "ADC-IN Test") [⟨literal "Read", index, some adcRead⟩]

/-- `ADCTest_Menu`. -/
def adcTestMenu (_index : ℤ) : Action IoState :=
  .list 16 (literal "ADC list") [
    ⟨literal "ADC_0", 0, some adcTestByIndex⟩,
    ⟨literal "ADC_2", 2, some adcTestByIndex⟩,
    ⟨literal "ADC_3", 3, some adcTestByIndex⟩,
    ⟨literal "ADC_4", 4, some adcTestByIndex⟩]

/-! ### PinTest.cpp -/

/-- A drive function: the pin is made an output, and then driven. -/
def pinDrive (drive : PinGlobals → Drive) (s : IoState) : IoState :=
  s.emit [.gpioInit (drive s.pin).pin, .gpioWrite (drive s.pin).pin (drive s.pin).gpo]

/-- `PinTest_Menu`. -/
def pinTestMenu (index : ℤ) : Action IoState :=
  .list 18 (literal "Pin Test") [
    ⟨literal "Pin Name", index, some fun _ => ioCharInt fun group number s =>
      { s with pin := inputPinName group number }⟩,
    ⟨literal "Pull High", index, some fun _ => ioAct 0 (pinDrive pullHigh)⟩,
    ⟨literal "Pull Low", index, some fun _ => ioAct 0 (pinDrive pullLow)⟩,
    ⟨literal "List All Supported Pin Number", index, some fun _ => ioAct 1 id⟩]

/-! ### IoTest.cpp -/

/-- `IOTest_Menu`. -/
def ioTestMenu (_index : ℤ) : Action IoState :=
  .list 10 (literal "I/O Function Test") [
    ⟨literal "GPIO", 0, some gpioTestMenu⟩,
    ⟨literal "I2C", 0, some i2cTestMenu⟩,
    ⟨literal "SPI_CS0", 0, some spiTestMenu⟩,
    ⟨literal "SPI_CS1", 1, some spiTestMenu⟩,
    ⟨literal "PWM", 0, some pwmTestMenu⟩,
    ⟨literal "ADC", 0, some adcTestMenu⟩,
    ⟨literal "Pin Test", 0, some pinTestMenu⟩]

/-! ### On the screen -/

theorem legible_gpioTestMenu (index : ℤ) : (gpioTestMenu index).Legible := by
  have hmenu : ∀ index, (gpioMenu index).Legible := by
    intro index
    refine .list (by simp) (by decide) rfl ?_
    intro e he func hfunc
    simp only [List.mem_cons, List.not_mem_nil, or_false] at he
    rcases he with rfl | rfl | rfl <;> cases hfunc <;> exact .prim _
  refine .andThen (.prim _) fun _ => .list (by simp) (by decide) rfl ?_
  intro e he func hfunc
  simp only [List.mem_cons, List.not_mem_nil, or_false] at he
  rcases he with rfl | rfl | rfl | rfl | rfl | rfl | rfl | rfl <;> cases hfunc <;> exact hmenu _

theorem legible_i2cTestMenu (index : ℤ) : (i2cTestMenu index).Legible := by
  refine .list (by simp) (by decide) rfl ?_
  intro e he func hfunc
  simp only [List.mem_cons, List.not_mem_nil, or_false] at he
  rcases he with rfl | rfl | rfl | rfl <;> cases hfunc <;> exact .prim _

theorem legible_spiTestMenu (index : ℤ) : (spiTestMenu index).Legible := by
  have hflash : ∀ e ∈ flashEntries index, ∀ func, e.func = some func →
      (func e.index).Legible := by
    intro e he func hfunc
    simp only [flashEntries, List.mem_cons, List.not_mem_nil, or_false] at he
    rcases he with rfl | rfl | rfl <;> cases hfunc <;> exact .prim _
  rw [spiTestMenu]
  split_ifs
  · exact .prim _
  · exact .andThen (.prim _) fun _ => .list (by simp [flashEntries]) (by decide) rfl hflash
  · exact .andThen (.prim _) fun _ => .list (by simp [flashEntries]) (by decide) rfl hflash
  · refine .andThen (.prim _) fun _ => .list (by simp [flashEntries]) (by decide) rfl ?_
    intro e he func hfunc
    rcases List.mem_append.mp he with he | he
    · exact hflash e he func hfunc
    · rw [List.mem_singleton.mp he] at hfunc ⊢
      cases hfunc
      exact .prim _

theorem legible_pwmTestMenu (index : ℤ) : (pwmTestMenu index).Legible := by
  refine .andThen (.prim _) fun _ => .list (by simp) (by decide) rfl ?_
  intro e he func hfunc
  simp only [List.mem_cons, List.not_mem_nil, or_false] at he
  rcases he with rfl | rfl <;> cases hfunc <;> exact .prim _

theorem legible_adcTestMenu (index : ℤ) : (adcTestMenu index).Legible := by
  have hindex : ∀ index, (adcTestByIndex index).Legible := by
    intro index
    refine .list (by simp) (by decide) rfl ?_
    intro e he func hfunc
    rw [List.mem_singleton.mp he] at hfunc ⊢
    cases hfunc
    show (adcRead index).Legible
    rw [adcRead]
    split <;> exact .prim _
  refine .list (by simp) (by decide) rfl ?_
  intro e he func hfunc
  simp only [List.mem_cons, List.not_mem_nil, or_false] at he
  rcases he with rfl | rfl | rfl | rfl <;> cases hfunc <;> exact hindex _

theorem legible_pinTestMenu (index : ℤ) : (pinTestMenu index).Legible := by
  refine .list (by simp) (by decide) rfl ?_
  intro e he func hfunc
  simp only [List.mem_cons, List.not_mem_nil, or_false] at he
  rcases he with rfl | rfl | rfl | rfl <;> cases hfunc <;> exact .prim _

/-- Every menu that `IOTest_Menu` can open can be read off the screen. -/
theorem legible_ioTestMenu (index : ℤ) : (ioTestMenu index).Legible := by
  refine .list (by simp) (by decide) rfl ?_
  intro e he func hfunc
  simp only [List.mem_cons, List.not_mem_nil, or_false] at he
  rcases he with rfl | rfl | rfl | rfl | rfl | rfl | rfl
  · cases hfunc
    exact legible_gpioTestMenu 0
  · cases hfunc
    exact legible_i2cTestMenu 0
  · cases hfunc
    exact legible_spiTestMenu 0
  · cases hfunc
    exact legible_spiTestMenu 1
  · cases hfunc
    exact legible_pwmTestMenu 0
  · cases hfunc
    exact legible_adcTestMenu 0
  · cases hfunc
    exact legible_pinTestMenu 0

/-! ### The pin test as a machine -/

/-- The calls with which the machine's drives are made. -/
def driveEvents (shown : PinShown) : List Event :=
  match shown.driven with
  | some d => [.gpioInit d.pin, .gpioWrite d.pin d.gpo]
  | none => []

/-- From the first state to the second the machine has run, and nothing else has happened. -/
def IsPinRun (s s' : IoState) : Prop :=
  ∃ actions, s' = { s with
    pin := pinTest.after s.pin actions
    log := s.log ++ (pinTest.outputs s.pin actions).flatMap driveEvents }

theorem IsPinRun.step {s s' : IoState} (h : IsPinRun s s') (a : PinAction) :
    IsPinRun s { s' with
      pin := (pinTest.step s'.pin a).1
      log := s'.log ++ driveEvents (pinTest.step s'.pin a).2 } := by
  obtain ⟨actions, rfl⟩ := h
  refine ⟨actions ++ [a], ?_⟩
  rw [Mealy.after_append, Mealy.outputs_append, List.flatMap_append, ← List.append_assoc]
  simp

/-- **The pin test is the machine**, at every moment, over some actions. -/
theorem pinTestMenu_actions {index : ℤ} {s s' : IoState} {lines : List Line}
    (hduring : (pinTestMenu index).During index s lines s') : IsPinRun s s' := by
  have hsat : Action.Sat (IsPinRun s) (IsPinRun s) (pinTestMenu index) (IsPinRun s) := by
    refine Action.Sat.list (fun _ h => h) ?_
    intro e he func hfunc
    simp only [List.mem_cons, List.not_mem_nil, or_false] at he
    rcases he with rfl | rfl | rfl | rfl
    · cases hfunc
      refine sat_ioCharInt (fun _ h => h) fun group number s' h => ?_
      have hstep := h.step (.inputPinName group number)
      rwa [show driveEvents _ = [] from rfl, List.append_nil] at hstep
    · cases hfunc
      exact sat_ioAct (fun _ h => h) (fun _ h => h.step .pullHigh) fun _ h => h
    · cases hfunc
      exact sat_ioAct (fun _ h => h) (fun _ h => h.step .pullLow) fun _ h => h
    · cases hfunc
      exact sat_ioAct (fun _ h => h) (fun _ h => h) fun _ h => h
  refine hsat.during ⟨[], ?_⟩ hduring
  simp

end IoTest

end Wise1511
