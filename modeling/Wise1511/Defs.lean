import Mathlib.Data.FinEnum
import Mathlib.Tactic.Common

/-!
# Constants of the radio driver

The access bits and status mask of `hal_spi_rf.h`, the FIFO header bytes of `cc112x.h`, and the
register addresses, strobes and masks of `cc112x_def.h` that the modelled functions use. Register
addresses are sixteen bits wide: the standard space is `0x0000`–`0x002E` and the extended space is
`0x2F00`–`0x2FFF`.
-/

namespace Wise1511

/-! ### `hal_spi_rf.h` -/

def radioBurstAccess : UInt8 := 0x40
def radioSingleAccess : UInt8 := 0x00
def radioReadAccess : UInt8 := 0x80
def radioWriteAccess : UInt8 := 0x00

/-- Bit of the chip status byte that says the chip is *not* ready. -/
def statusChipRdynBm : UInt8 := 0x80

/-- `registerSetting_t`. -/
structure RegisterSetting where
  addr : UInt16
  data : UInt8
  deriving DecidableEq, Repr

/-! ### FIFO header bytes of `cc112x.h`

These carry the access bits inside the address byte. -/

def cc112xSingleTxfifo : UInt8 := 0x3F
def cc112xBurstTxfifo : UInt8 := 0x7F
def cc112xBurstRxfifo : UInt8 := 0xFF

/-! ### FIFO address of `cc112x_def.h`

Here the access bits are left to the access type. -/

def txfifo : UInt8 := 0x3F
def rxfifo : UInt8 := 0x3F

/-! ### Command strobes -/

def sres : UInt8 := 0x30
def srx : UInt8 := 0x34
def stx : UInt8 := 0x35
def sidle : UInt8 := 0x36
def sfrx : UInt8 := 0x3A
def sftx : UInt8 := 0x3B

/-! ### Registers read and written by the driver -/

def pktCfg0 : UInt16 := 0x0028
def pktLen : UInt16 := 0x002E
def rssi1 : UInt16 := 0x2F71
def marcstate : UInt16 := 0x2F73
def lqiVal : UInt16 := 0x2F74
def freqoffEst1 : UInt16 := 0x2F77
def freqoffEst0 : UInt16 := 0x2F78
def partnumber : UInt16 := 0x2F8F
def partversion : UInt16 := 0x2F90
def numRxbytes : UInt16 := 0x2FD7

/-- What `MARCSTATE` reads as, under the mask of its state bits. -/
def marcstateIdle : UInt8 := 0x01
def rxFifoErr : UInt8 := 0x11
def txFifoErr : UInt8 := 0x16

/-- The device ids. -/
def devUnknown : UInt8 := 10
def devCc1120 : UInt8 := 15
def devCc1121 : UInt8 := 16
def devCc1125 : UInt8 := 17
def devCc1175 : UInt8 := 20

/-- Mask of the `CRC_OK` bit within the LQI byte. -/
def crcOk : UInt8 := 0x80

/-- Header byte of the extended register space. -/
def extSpace : UInt8 := 0x2F

end Wise1511
