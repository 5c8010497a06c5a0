import Wise1511.Defs
import Wise1511.Lib.CArray
import Wise1511.Lib.SpiBus

/-!
# The CC112x as an SPI slave

The chip side of the bus, as the data sheet has it. A frame begins with a header byte: bit 7 reads,
bit 6 bursts, and the low six bits are an address. Address `0x2F` takes the next byte as an
extended address, `0x30`–`0x3D` are command strobes, `0x3F` is the FIFO (written, the TX FIFO;
read, the RX FIFO). After a single access or a strobe the next byte is a header again; a burst goes
on at the next register until chip select rises. Nothing takes effect before its last byte has
arrived, so an access cut off by chip select does nothing.

`0x3E` is direct memory access, which no function of this repository uses: the chip ignores the
rest of such a frame.

## The register view

What a register *reads as* is a parameter. With `plainView` every register is storage, which is the
view under which the driver refines a register store. With `liveView`, `NUM_RXBYTES` reports the
fill of the RX FIFO, which is what receiving a packet depends on. Writing is storage either way, for
the status registers too that some of the tables write (`PARTNUMBER`, `PARTVERSION`,
`SERIAL_STATUS`, `MODEM_STATUS1`).

## Transmission

Executing `STX` sends what the TX FIFO holds as one packet; `Chip.sent` collects the packets put on
the air. The chip itself takes as many bytes as its packet format says. The two are the same as long
as the FIFO holds one packet of that format, which is what the bursts see to: they set the length,
and each `radio_send` hands over as many bytes. `RadioCalls` has the transmission by format.

What the chip does with the air in the other direction is up to its environment.
-/

namespace Wise1511

/-- The chip. -/
structure Chip where
  /-- Register contents by full address, `0x2F00 + a` for the extended register `a`. -/
  regs : CArray
  /-- What a reset puts into the registers. -/
  resetRegs : CArray
  rxFifo : List UInt8
  txFifo : List UInt8
  /-- Packets transmitted, in order. -/
  sent : List (List UInt8)
  /-- Strobes executed, in order. -/
  strobes : List UInt8
  /-- The status byte shifted out while a header or data byte is shifted in. -/
  status : UInt8
  /-- What an empty RX FIFO reads as. -/
  underrun : UInt8

/-- Where the chip is within a frame. -/
inductive Phase where
  /-- The next byte is a header. -/
  | header
  /-- The next byte is an extended address. -/
  | extAddr (read burst : Bool)
  /-- The next byte is data of the register at this full address. -/
  | reg (read burst : Bool) (addr : ℕ)
  /-- The next byte is FIFO data. -/
  | fifo (read burst : Bool)
  /-- Nothing more is decoded in this frame. -/
  | ignored
  deriving DecidableEq

namespace Chip

/-- The state a reset leaves: configuration at its reset values, FIFOs empty. -/
def reset (c : Chip) : Chip := { c with regs := c.resetRegs, rxFifo := [], txFifo := [] }

/-- Effect of a command strobe besides its being recorded. -/
def command (c : Chip) (cmd : UInt8) : Chip :=
  if cmd = sres then c.reset
  else if cmd = sfrx then { c with rxFifo := [] }
  else if cmd = sftx then { c with txFifo := [] }
  else if cmd = stx then { c with sent := c.sent ++ [c.txFifo], txFifo := [] }
  else c

/-- Execute a command strobe. -/
def strobe (c : Chip) (cmd : UInt8) : Chip :=
  { c.command cmd with strobes := c.strobes ++ [cmd] }

/-- Store a register. -/
def writeReg (c : Chip) (addr : ℕ) (b : UInt8) : Chip :=
  { c with regs := Function.update c.regs addr b }

/-- Append to the TX FIFO. -/
def pushTx (c : Chip) (bs : List UInt8) : Chip := { c with txFifo := c.txFifo ++ bs }

/-- Remove from the front of the RX FIFO. -/
def dropRx (c : Chip) (n : ℕ) : Chip := { c with rxFifo := c.rxFifo.drop n }

/-- The first `n` bytes a burst read of the RX FIFO returns. -/
def popRx (c : Chip) (n : ℕ) : List UInt8 := (List.range n).map fun i => c.rxFifo.getD i c.underrun

/-- A packet on the air becomes FIFO contents; the registers change as the radio likes. -/
def receive (c : Chip) (packet : List UInt8) (regs : CArray) : Chip :=
  { c with rxFifo := c.rxFifo ++ packet, regs := regs }

/-- Decode a header byte. -/
def decodeHeader (c : Chip) (b : UInt8) : Chip × Phase :=
  let read : Bool := b &&& 0x80 = 0x80
  let burst : Bool := b &&& 0x40 = 0x40
  let addr := b &&& 0x3F
  if addr = extSpace then (c, .extAddr read burst)
  else if addr = 0x3F then (c, .fifo read burst)
  else if addr = 0x3E then (c, .ignored)
  else if 0x30 ≤ addr then (c.strobe addr, .header)
  else (c, .reg read burst addr.toNat)

end Chip

/-- A register reads as what was stored in it. -/
def plainView (c : Chip) (addr : ℕ) : UInt8 := c.regs addr

/-- As `plainView`, except that `NUM_RXBYTES` reads as the fill of the RX FIFO. -/
def liveView (c : Chip) (addr : ℕ) : UInt8 :=
  if addr = numRxbytes.toNat then UInt8.ofNat c.rxFifo.length else c.regs addr

/-- The phase after a data byte. -/
def Phase.next (burst : Bool) (p : Phase) : Phase := if burst then p else .header

/-- The chip as a slave on the bus. -/
def cc112x (view : Chip → ℕ → UInt8) : SpiSlave Chip Phase where
  start := .header
  step
    | (c, .header), b => (c.decodeHeader b, c.status)
    | (c, .extAddr read burst), b => ((c, .reg read burst (0x2F00 + b.toNat)), 0)
    | (c, .reg true burst addr), _ =>
        ((c, Phase.next burst (.reg true burst (addr + 1))), view c addr)
    | (c, .reg false burst addr), b =>
        ((c.writeReg addr b, Phase.next burst (.reg false burst (addr + 1))), c.status)
    | (c, .fifo true burst), _ =>
        ((c.dropRx 1, Phase.next burst (.fifo true burst)), c.rxFifo.headD c.underrun)
    | (c, .fifo false burst), b =>
        ((c.pushTx [b], Phase.next burst (.fifo false burst)), c.status)
    | (c, .ignored), _ => ((c, .ignored), c.status)

/-- A bus to a chip with every register zero and empty FIFOs, between frames. -/
def resetBus : SpiBus Chip Phase where
  dev := ⟨fun _ => 0, fun _ => 0, [], [], [], [], 0, 0⟩
  phase := .header
  cur := []
  frames := []

end Wise1511
