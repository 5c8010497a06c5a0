import Wise1511.Defs

/-!
# The register settings tables

The three tables of `cc112x_drv.cpp` and the default table of `RfTest.h`, under the register names
of `cc112x_def.h` (the `CC1125_` names of `cc112x.h` are the same addresses); `Defs` has those the
driver uses. `SPITest.cpp` carries its own copy of the first table, equal to it entry by entry.
-/

namespace Wise1511

namespace Reg

def iocfg3 : UInt16 := 0x0000
def iocfg2 : UInt16 := 0x0001
def iocfg1 : UInt16 := 0x0002
def iocfg0 : UInt16 := 0x0003
def sync3 : UInt16 := 0x0004
def sync2 : UInt16 := 0x0005
def sync1 : UInt16 := 0x0006
def sync0 : UInt16 := 0x0007
def syncCfg1 : UInt16 := 0x0008
def syncCfg0 : UInt16 := 0x0009
def deviationM : UInt16 := 0x000A
def modcfgDevE : UInt16 := 0x000B
def dcfiltCfg : UInt16 := 0x000C
def preambleCfg1 : UInt16 := 0x000D
def preambleCfg0 : UInt16 := 0x000E
def freqIfCfg : UInt16 := 0x000F
def iqic : UInt16 := 0x0010
def chanBw : UInt16 := 0x0011
def mdmcfg1 : UInt16 := 0x0012
def mdmcfg0 : UInt16 := 0x0013
def symbolRate2 : UInt16 := 0x0014
def symbolRate1 : UInt16 := 0x0015
def symbolRate0 : UInt16 := 0x0016
def agcRef : UInt16 := 0x0017
def agcCsThr : UInt16 := 0x0018
def agcCfg1 : UInt16 := 0x001C
def agcCfg0 : UInt16 := 0x001D
def fifoCfg : UInt16 := 0x001E
def settlingCfg : UInt16 := 0x0020
def fsCfg : UInt16 := 0x0021
def pktCfg2 : UInt16 := 0x0026
def pktCfg1 : UInt16 := 0x0027
def paCfg2 : UInt16 := 0x002B
def paCfg1 : UInt16 := 0x002C
def paCfg0 : UInt16 := 0x002D
def ifMixCfg : UInt16 := 0x2F00
def freqoffCfg : UInt16 := 0x2F01
def tocCfg : UInt16 := 0x2F02
def freqoff1 : UInt16 := 0x2F0A
def freqoff0 : UInt16 := 0x2F0B
def freq2 : UInt16 := 0x2F0C
def freq1 : UInt16 := 0x2F0D
def freq0 : UInt16 := 0x2F0E
def fsDig1 : UInt16 := 0x2F12
def fsDig0 : UInt16 := 0x2F13
def fsCal1 : UInt16 := 0x2F16
def fsCal0 : UInt16 := 0x2F17
def fsDivtwo : UInt16 := 0x2F19
def fsDsm0 : UInt16 := 0x2F1B
def fsDvc0 : UInt16 := 0x2F1D
def fsPfd : UInt16 := 0x2F1F
def fsPre : UInt16 := 0x2F20
def fsRegDivCml : UInt16 := 0x2F21
def fsSpare : UInt16 := 0x2F22
def fsVco0 : UInt16 := 0x2F27
def xosc5 : UInt16 := 0x2F32
def xosc3 : UInt16 := 0x2F34
def xosc1 : UInt16 := 0x2F36

end Reg

open Reg

/-- `preferredSettings_1200bps`, of the driver and of `SPITest.cpp`. -/
def preferredSettings1200bps : List RegisterSetting := [
  ⟨iocfg3, 0xB0⟩, ⟨iocfg2, 0x06⟩, ⟨iocfg1, 0xB0⟩, ⟨iocfg0, 0x06⟩, ⟨sync3, 0xD3⟩, ⟨sync2, 0x91⟩,
  ⟨sync1, 0xD3⟩, ⟨sync0, 0x91⟩, ⟨syncCfg1, 0x0B⟩, ⟨dcfiltCfg, 0x1C⟩, ⟨preambleCfg1, 0x18⟩,
  ⟨iqic, 0xC6⟩, ⟨chanBw, 0x08⟩, ⟨mdmcfg0, 0x05⟩, ⟨symbolRate2, 0x43⟩, ⟨symbolRate1, 0xA9⟩,
  ⟨symbolRate0, 0x2A⟩, ⟨agcRef, 0x20⟩, ⟨agcCsThr, 0x19⟩, ⟨agcCfg1, 0xA9⟩, ⟨agcCfg0, 0xCF⟩,
  ⟨fifoCfg, 0x00⟩, ⟨settlingCfg, 0x0B⟩, ⟨fsCfg, 0x12⟩, ⟨pktCfg2, 0x04⟩, ⟨pktCfg1, 0x04⟩,
  ⟨pktCfg0, 0x00⟩, ⟨paCfg2, 0x7F⟩, ⟨paCfg1, 0x56⟩, ⟨paCfg0, 0x7C⟩, ⟨pktLen, 0x14⟩,
  ⟨ifMixCfg, 0x00⟩, ⟨freqoffCfg, 0x22⟩, ⟨freq2, 0x70⟩, ⟨freq1, 0xD8⟩, ⟨fsDig1, 0x00⟩,
  ⟨fsDig0, 0x5F⟩, ⟨fsCal1, 0x40⟩, ⟨fsCal0, 0x0E⟩, ⟨fsDivtwo, 0x03⟩, ⟨fsDsm0, 0x33⟩,
  ⟨fsDvc0, 0x17⟩, ⟨fsPfd, 0x50⟩, ⟨fsPre, 0x6E⟩, ⟨fsRegDivCml, 0x14⟩, ⟨fsSpare, 0xAC⟩,
  ⟨fsVco0, 0xB4⟩, ⟨xosc5, 0x0E⟩, ⟨xosc1, 0x03⟩]

/-- `preferredSettings_38400bps`. -/
def preferredSettings38400bps : List RegisterSetting := [
  ⟨iocfg3, 0xB0⟩, ⟨iocfg2, 0x06⟩, ⟨iocfg1, 0xB0⟩, ⟨iocfg0, 0x06⟩, ⟨sync3, 0xD3⟩, ⟨sync2, 0x91⟩,
  ⟨sync1, 0xD3⟩, ⟨sync0, 0x91⟩, ⟨syncCfg1, 0x08⟩, ⟨deviationM, 0x48⟩, ⟨modcfgDevE, 0x0D⟩,
  ⟨dcfiltCfg, 0x1C⟩, ⟨preambleCfg1, 0x18⟩, ⟨iqic, 0x00⟩, ⟨chanBw, 0x02⟩, ⟨mdmcfg0, 0x05⟩,
  ⟨symbolRate2, 0x93⟩, ⟨symbolRate1, 0xA9⟩, ⟨symbolRate0, 0x2A⟩, ⟨agcCsThr, 0x19⟩,
  ⟨agcCfg1, 0xA9⟩, ⟨agcCfg0, 0xCF⟩, ⟨fifoCfg, 0x00⟩, ⟨settlingCfg, 0x0B⟩, ⟨fsCfg, 0x12⟩,
  ⟨pktCfg2, 0x04⟩, ⟨pktCfg1, 0x04⟩, ⟨pktCfg0, 0x20⟩, ⟨paCfg2, 0x7F⟩, ⟨paCfg1, 0x56⟩,
  ⟨paCfg0, 0x7B⟩, ⟨pktLen, 0xFF⟩, ⟨ifMixCfg, 0x00⟩, ⟨freqoffCfg, 0x22⟩, ⟨freqoff1, 0x00⟩,
  ⟨freqoff0, 0x00⟩, ⟨freq2, 0x70⟩, ⟨freq1, 0xD8⟩, ⟨freq0, 0x00⟩, ⟨fsDig1, 0x00⟩, ⟨fsDig0, 0x5F⟩,
  ⟨fsCal1, 0x40⟩, ⟨fsCal0, 0x0E⟩, ⟨fsDivtwo, 0x03⟩, ⟨fsDsm0, 0x33⟩, ⟨fsDvc0, 0x17⟩, ⟨fsPfd, 0x50⟩,
  ⟨fsPre, 0x6E⟩, ⟨fsRegDivCml, 0x14⟩, ⟨fsSpare, 0xAC⟩, ⟨fsVco0, 0xB4⟩, ⟨xosc5, 0x0E⟩,
  ⟨xosc1, 0x03⟩]

/-- `preferredSettings_50kbps`. -/
def preferredSettings50kbps : List RegisterSetting := [
  ⟨iocfg3, 0xB0⟩, ⟨iocfg2, 0x06⟩, ⟨iocfg1, 0xB0⟩, ⟨iocfg0, 0x06⟩, ⟨sync3, 0xD3⟩, ⟨sync2, 0x91⟩,
  ⟨sync1, 0xD3⟩, ⟨sync0, 0x91⟩, ⟨syncCfg1, 0x08⟩, ⟨syncCfg0, 0x17⟩, ⟨deviationM, 0x99⟩,
  ⟨modcfgDevE, 0x0D⟩, ⟨dcfiltCfg, 0x15⟩, ⟨preambleCfg1, 0x18⟩, ⟨preambleCfg0, 0x2A⟩,
  ⟨freqIfCfg, 0x3A⟩, ⟨iqic, 0x00⟩, ⟨chanBw, 0x02⟩, ⟨mdmcfg1, 0x46⟩, ⟨mdmcfg0, 0x05⟩,
  ⟨symbolRate2, 0x99⟩, ⟨symbolRate1, 0x99⟩, ⟨symbolRate0, 0x99⟩, ⟨agcRef, 0x3C⟩, ⟨agcCsThr, 0xEF⟩,
  ⟨agcCfg1, 0xA9⟩, ⟨agcCfg0, 0xC0⟩, ⟨fifoCfg, 0x00⟩, ⟨settlingCfg, 0x0B⟩, ⟨fsCfg, 0x12⟩,
  ⟨pktCfg2, 0x04⟩, ⟨pktCfg1, 0x04⟩, ⟨pktCfg0, 0x20⟩, ⟨paCfg2, 0x7F⟩, ⟨paCfg1, 0x56⟩,
  ⟨paCfg0, 0x79⟩, ⟨pktLen, 0xFF⟩, ⟨ifMixCfg, 0x00⟩, ⟨freqoffCfg, 0x20⟩, ⟨tocCfg, 0x0A⟩,
  ⟨freqoff1, 0x00⟩, ⟨freqoff0, 0x00⟩, ⟨freq2, 0x70⟩, ⟨freq1, 0xD8⟩, ⟨freq0, 0x00⟩, ⟨fsDig1, 0x00⟩,
  ⟨fsDig0, 0x5F⟩, ⟨fsCal1, 0x40⟩, ⟨fsCal0, 0x0E⟩, ⟨fsDivtwo, 0x03⟩, ⟨fsDsm0, 0x33⟩,
  ⟨fsDvc0, 0x17⟩, ⟨fsPfd, 0x50⟩, ⟨fsPre, 0x6E⟩, ⟨fsRegDivCml, 0x14⟩, ⟨fsSpare, 0xAC⟩,
  ⟨fsVco0, 0xB4⟩, ⟨xosc5, 0x0E⟩, ⟨xosc1, 0x03⟩]

/-- `preferredSettings` of `RfTest.h`, the table `registerConfig` falls back to. -/
def preferredSettings : List RegisterSetting := [
  ⟨iocfg3, 0xB0⟩, ⟨iocfg2, 0x06⟩, ⟨iocfg1, 0xB0⟩, ⟨iocfg0, 0x40⟩, ⟨syncCfg1, 0x0B⟩,
  ⟨dcfiltCfg, 0x1C⟩, ⟨iqic, 0xC6⟩, ⟨chanBw, 0x19⟩, ⟨mdmcfg0, 0x05⟩, ⟨agcRef, 0x20⟩,
  ⟨agcCsThr, 0x19⟩, ⟨agcCfg1, 0xA9⟩, ⟨agcCfg0, 0xCF⟩, ⟨fifoCfg, 0x00⟩, ⟨fsCfg, 0x12⟩,
  ⟨pktCfg0, 0x20⟩, ⟨paCfg0, 0x7E⟩, ⟨pktLen, 0xFF⟩, ⟨ifMixCfg, 0x00⟩, ⟨freqoffCfg, 0x22⟩,
  ⟨freq2, 0x70⟩, ⟨freq1, 0xD6⟩, ⟨freq0, 0x8F⟩, ⟨fsDig1, 0x00⟩, ⟨fsDig0, 0x5F⟩, ⟨fsCal0, 0x0E⟩,
  ⟨fsDivtwo, 0x03⟩, ⟨fsDsm0, 0x33⟩, ⟨fsDvc0, 0x17⟩, ⟨fsPfd, 0x50⟩, ⟨fsPre, 0x6E⟩,
  ⟨fsRegDivCml, 0x14⟩, ⟨fsSpare, 0xAC⟩, ⟨xosc5, 0x0E⟩, ⟨xosc3, 0xC7⟩, ⟨xosc1, 0x07⟩]

end Wise1511
