import Wise1511.ConfigLoaders

/-!
# The tables of the radio tests

The register settings of the handlers in `RfTest.cpp`, `SpectrumTest.cpp` and `SpectrumTest2.cpp`.
The two handlers of a burst test, sender and receiver, carry a table each, and the tables are equal.
The two spectrum tests have the same tables, which are written once here.

A handler of the spectrum test has two tables, one for continuous transmission and one for packets.
They have the modulation in common: `modes_agree` says in which registers they differ at all.
-/

namespace Wise1511

namespace Reg

def agcCfg3 : UInt16 := 0x001A
def agcCfg2 : UInt16 := 0x001B
def fsChp : UInt16 := 0x2F18
def serialStatus : UInt16 := 0x2F91
def modemStatus1 : UInt16 := 0x2F92
def xoscTest1 : UInt16 := 0x2F9F

end Reg

open Reg

/-! ### `RfTest.cpp` -/

/-- The table of `runLTX_4GFSK_500`. -/
def settings4gfsk500 : List RegisterSetting := [
  ⟨iocfg3, 0xB0⟩, ⟨iocfg2, 0x06⟩, ⟨iocfg1, 0xB0⟩, ⟨iocfg0, 0x40⟩, ⟨syncCfg1, 0x08⟩,
  ⟨modcfgDevE, 0x2B⟩, ⟨dcfiltCfg, 0x1C⟩, ⟨iqic, 0xC6⟩, ⟨chanBw, 0x10⟩, ⟨mdmcfg0, 0x05⟩,
  ⟨symbolRate2, 0x20⟩, ⟨symbolRate1, 0x62⟩, ⟨symbolRate0, 0x4E⟩, ⟨agcRef, 0x20⟩, ⟨agcCsThr, 0x19⟩,
  ⟨agcCfg1, 0xA9⟩, ⟨agcCfg0, 0xCF⟩, ⟨fifoCfg, 0x00⟩, ⟨fsCfg, 0x12⟩, ⟨pktCfg0, 0x20⟩, ⟨paCfg0, 0x7E⟩,
  ⟨pktLen, 0xFF⟩, ⟨ifMixCfg, 0x00⟩, ⟨freqoffCfg, 0x22⟩, ⟨freq2, 0x6C⟩, ⟨freq1, 0x80⟩,
  ⟨fsDig1, 0x00⟩, ⟨fsDig0, 0x5F⟩, ⟨fsCal0, 0x0E⟩, ⟨fsDivtwo, 0x03⟩, ⟨fsDsm0, 0x33⟩, ⟨fsDvc0, 0x17⟩,
  ⟨fsPfd, 0x50⟩, ⟨fsPre, 0x6E⟩, ⟨fsRegDivCml, 0x14⟩, ⟨fsSpare, 0xAC⟩, ⟨xosc5, 0x0E⟩, ⟨xosc3, 0xC7⟩,
  ⟨xosc1, 0x07⟩]

/-- The table of `runLRX_4GFSK_500`. -/
def settingsLrx4gfsk500 : List RegisterSetting := [
  ⟨iocfg3, 0xB0⟩, ⟨iocfg2, 0x06⟩, ⟨iocfg1, 0xB0⟩, ⟨iocfg0, 0x40⟩, ⟨syncCfg1, 0x08⟩,
  ⟨modcfgDevE, 0x2B⟩, ⟨dcfiltCfg, 0x1C⟩, ⟨iqic, 0xC6⟩, ⟨chanBw, 0x10⟩, ⟨mdmcfg0, 0x05⟩,
  ⟨symbolRate2, 0x20⟩, ⟨symbolRate1, 0x62⟩, ⟨symbolRate0, 0x4E⟩, ⟨agcRef, 0x20⟩, ⟨agcCsThr, 0x19⟩,
  ⟨agcCfg1, 0xA9⟩, ⟨agcCfg0, 0xCF⟩, ⟨fifoCfg, 0x00⟩, ⟨fsCfg, 0x12⟩, ⟨pktCfg0, 0x20⟩, ⟨paCfg0, 0x7E⟩,
  ⟨pktLen, 0xFF⟩, ⟨ifMixCfg, 0x00⟩, ⟨freqoffCfg, 0x22⟩, ⟨freq2, 0x6C⟩, ⟨freq1, 0x80⟩,
  ⟨fsDig1, 0x00⟩, ⟨fsDig0, 0x5F⟩, ⟨fsCal0, 0x0E⟩, ⟨fsDivtwo, 0x03⟩, ⟨fsDsm0, 0x33⟩, ⟨fsDvc0, 0x17⟩,
  ⟨fsPfd, 0x50⟩, ⟨fsPre, 0x6E⟩, ⟨fsRegDivCml, 0x14⟩, ⟨fsSpare, 0xAC⟩, ⟨xosc5, 0x0E⟩, ⟨xosc3, 0xC7⟩,
  ⟨xosc1, 0x07⟩]

/-- The table of `runLTX_2FSK_300`. -/
def settings2fsk300 : List RegisterSetting := [
  ⟨iocfg3, 0xB0⟩, ⟨iocfg2, 0x06⟩, ⟨iocfg1, 0xB0⟩, ⟨iocfg0, 0x40⟩, ⟨syncCfg1, 0x0B⟩,
  ⟨modcfgDevE, 0x01⟩, ⟨dcfiltCfg, 0x1C⟩, ⟨iqic, 0xC6⟩, ⟨chanBw, 0x69⟩, ⟨mdmcfg0, 0x05⟩,
  ⟨symbolRate2, 0x23⟩, ⟨agcRef, 0x15⟩, ⟨agcCsThr, 0x19⟩, ⟨agcCfg1, 0xA9⟩, ⟨agcCfg0, 0xCF⟩,
  ⟨fifoCfg, 0x00⟩, ⟨settlingCfg, 0x03⟩, ⟨fsCfg, 0x12⟩, ⟨pktCfg0, 0x20⟩, ⟨paCfg2, 0x7F⟩,
  ⟨paCfg0, 0x7E⟩, ⟨pktLen, 0xFF⟩, ⟨ifMixCfg, 0x00⟩, ⟨freqoffCfg, 0x22⟩, ⟨freq2, 0x6C⟩,
  ⟨freq1, 0x80⟩, ⟨fsDig1, 0x00⟩, ⟨fsDig0, 0x5F⟩, ⟨fsCal0, 0x0E⟩, ⟨fsDivtwo, 0x03⟩, ⟨fsDsm0, 0x33⟩,
  ⟨fsDvc0, 0x17⟩, ⟨fsPfd, 0x50⟩, ⟨fsPre, 0x6E⟩, ⟨fsRegDivCml, 0x14⟩, ⟨fsSpare, 0xAC⟩, ⟨xosc5, 0x0E⟩,
  ⟨xosc3, 0xC7⟩, ⟨xosc1, 0x07⟩, ⟨partnumber, 0x58⟩, ⟨partversion, 0x21⟩, ⟨modemStatus1, 0x10⟩,
  ⟨xoscTest1, 0x00⟩]

/-- The table of `runLRX_2FSK_300`. -/
def settingsLrx2fsk300 : List RegisterSetting := [
  ⟨iocfg3, 0xB0⟩, ⟨iocfg2, 0x06⟩, ⟨iocfg1, 0xB0⟩, ⟨iocfg0, 0x40⟩, ⟨syncCfg1, 0x0B⟩,
  ⟨modcfgDevE, 0x01⟩, ⟨dcfiltCfg, 0x1C⟩, ⟨iqic, 0xC6⟩, ⟨chanBw, 0x69⟩, ⟨mdmcfg0, 0x05⟩,
  ⟨symbolRate2, 0x23⟩, ⟨agcRef, 0x15⟩, ⟨agcCsThr, 0x19⟩, ⟨agcCfg1, 0xA9⟩, ⟨agcCfg0, 0xCF⟩,
  ⟨fifoCfg, 0x00⟩, ⟨settlingCfg, 0x03⟩, ⟨fsCfg, 0x12⟩, ⟨pktCfg0, 0x20⟩, ⟨paCfg2, 0x7F⟩,
  ⟨paCfg0, 0x7E⟩, ⟨pktLen, 0xFF⟩, ⟨ifMixCfg, 0x00⟩, ⟨freqoffCfg, 0x22⟩, ⟨freq2, 0x6C⟩,
  ⟨freq1, 0x80⟩, ⟨fsDig1, 0x00⟩, ⟨fsDig0, 0x5F⟩, ⟨fsCal0, 0x0E⟩, ⟨fsDivtwo, 0x03⟩, ⟨fsDsm0, 0x33⟩,
  ⟨fsDvc0, 0x17⟩, ⟨fsPfd, 0x50⟩, ⟨fsPre, 0x6E⟩, ⟨fsRegDivCml, 0x14⟩, ⟨fsSpare, 0xAC⟩, ⟨xosc5, 0x0E⟩,
  ⟨xosc3, 0xC7⟩, ⟨xosc1, 0x07⟩, ⟨partnumber, 0x58⟩, ⟨partversion, 0x21⟩, ⟨modemStatus1, 0x10⟩,
  ⟨xoscTest1, 0x00⟩]

/-- Sender and receiver of a test carry equal tables. -/
theorem settingsLrx_eq :
    settingsLrx4gfsk500 = settings4gfsk500 ∧ settingsLrx2fsk300 = settings2fsk300 := by
  decide

/-! ### `SpectrumTest.cpp` -/

/-- The tables of `runTX_4GFSK_500`: for an index of 0, and for any other. -/
def continuous4gfsk500 : List RegisterSetting := [
  ⟨iocfg3, 0xB0⟩, ⟨iocfg2, 0x08⟩, ⟨iocfg1, 0xB0⟩, ⟨iocfg0, 0x09⟩, ⟨syncCfg1, 0x07⟩,
  ⟨deviationM, 0x53⟩, ⟨modcfgDevE, 0x2F⟩, ⟨dcfiltCfg, 0x04⟩, ⟨preambleCfg1, 0x00⟩,
  ⟨freqIfCfg, 0x00⟩, ⟨iqic, 0x00⟩, ⟨chanBw, 0x01⟩, ⟨mdmcfg1, 0x06⟩, ⟨mdmcfg0, 0x05⟩,
  ⟨symbolRate2, 0x20⟩, ⟨symbolRate1, 0x62⟩, ⟨symbolRate0, 0x4E⟩, ⟨agcRef, 0x3C⟩, ⟨agcCsThr, 0xEC⟩,
  ⟨agcCfg3, 0x83⟩, ⟨agcCfg2, 0x60⟩, ⟨agcCfg1, 0xA9⟩, ⟨agcCfg0, 0xC0⟩, ⟨fifoCfg, 0x00⟩,
  ⟨settlingCfg, 0x03⟩, ⟨fsCfg, 0x12⟩, ⟨pktCfg2, 0x05⟩, ⟨pktCfg1, 0x00⟩, ⟨pktCfg0, 0x20⟩,
  ⟨paCfg0, 0x06⟩, ⟨ifMixCfg, 0x00⟩, ⟨tocCfg, 0x0A⟩, ⟨freq2, 0x6C⟩, ⟨freq1, 0x80⟩, ⟨fsDig1, 0x00⟩,
  ⟨fsDig0, 0x5F⟩, ⟨fsCal0, 0x0E⟩, ⟨fsChp, 0x35⟩, ⟨fsDivtwo, 0x03⟩, ⟨fsDsm0, 0x33⟩, ⟨fsDvc0, 0x17⟩,
  ⟨fsPfd, 0x50⟩, ⟨fsPre, 0x6E⟩, ⟨fsRegDivCml, 0x14⟩, ⟨fsSpare, 0xAC⟩, ⟨xosc5, 0x0E⟩, ⟨xosc3, 0xC7⟩,
  ⟨xosc1, 0x07⟩, ⟨partnumber, 0x58⟩, ⟨partversion, 0x21⟩, ⟨serialStatus, 0x08⟩,
  ⟨modemStatus1, 0x10⟩, ⟨xoscTest1, 0x00⟩]

def burst4gfsk500 : List RegisterSetting := [
  ⟨iocfg3, 0xB0⟩, ⟨iocfg2, 0x06⟩, ⟨iocfg1, 0xB0⟩, ⟨iocfg0, 0x40⟩, ⟨syncCfg1, 0x07⟩,
  ⟨deviationM, 0x53⟩, ⟨modcfgDevE, 0x2F⟩, ⟨dcfiltCfg, 0x04⟩, ⟨preambleCfg1, 0x18⟩,
  ⟨freqIfCfg, 0x00⟩, ⟨iqic, 0x00⟩, ⟨chanBw, 0x01⟩, ⟨mdmcfg0, 0x05⟩, ⟨symbolRate2, 0x20⟩,
  ⟨symbolRate1, 0x62⟩, ⟨symbolRate0, 0x4E⟩, ⟨agcRef, 0x3C⟩, ⟨agcCsThr, 0xEC⟩, ⟨agcCfg3, 0x83⟩,
  ⟨agcCfg2, 0x60⟩, ⟨agcCfg1, 0xA9⟩, ⟨agcCfg0, 0xC0⟩, ⟨fifoCfg, 0x00⟩, ⟨settlingCfg, 0x03⟩,
  ⟨fsCfg, 0x12⟩, ⟨pktCfg0, 0x20⟩, ⟨paCfg0, 0x06⟩, ⟨pktLen, 0xFF⟩, ⟨ifMixCfg, 0x00⟩, ⟨tocCfg, 0x0A⟩,
  ⟨freq2, 0x6C⟩, ⟨freq1, 0x80⟩, ⟨fsDig1, 0x00⟩, ⟨fsDig0, 0x5F⟩, ⟨fsCal0, 0x0E⟩, ⟨fsDivtwo, 0x03⟩,
  ⟨fsDsm0, 0x33⟩, ⟨fsDvc0, 0x17⟩, ⟨fsPfd, 0x50⟩, ⟨fsPre, 0x6E⟩, ⟨fsRegDivCml, 0x14⟩,
  ⟨fsSpare, 0xAC⟩, ⟨xosc5, 0x0E⟩, ⟨xosc3, 0xC7⟩, ⟨xosc1, 0x07⟩, ⟨partnumber, 0x58⟩,
  ⟨partversion, 0x21⟩, ⟨modemStatus1, 0x10⟩, ⟨xoscTest1, 0x00⟩]

/-- The tables of `runTX_4GFSK_200k`: for an index of 0, and for any other. -/
def continuous4gfsk200k : List RegisterSetting := [
  ⟨iocfg3, 0xB0⟩, ⟨iocfg2, 0x08⟩, ⟨iocfg1, 0xB0⟩, ⟨iocfg0, 0x09⟩, ⟨syncCfg1, 0x07⟩,
  ⟨deviationM, 0x53⟩, ⟨modcfgDevE, 0x2F⟩, ⟨dcfiltCfg, 0x04⟩, ⟨preambleCfg1, 0x00⟩,
  ⟨freqIfCfg, 0x00⟩, ⟨iqic, 0x00⟩, ⟨chanBw, 0x01⟩, ⟨mdmcfg1, 0x06⟩, ⟨mdmcfg0, 0x05⟩,
  ⟨symbolRate2, 0xA9⟩, ⟨symbolRate1, 0x99⟩, ⟨symbolRate0, 0x9A⟩, ⟨agcRef, 0x3C⟩, ⟨agcCsThr, 0xEC⟩,
  ⟨agcCfg3, 0x83⟩, ⟨agcCfg2, 0x60⟩, ⟨agcCfg1, 0xA9⟩, ⟨agcCfg0, 0xC0⟩, ⟨fifoCfg, 0x00⟩,
  ⟨settlingCfg, 0x03⟩, ⟨fsCfg, 0x12⟩, ⟨pktCfg2, 0x05⟩, ⟨pktCfg1, 0x00⟩, ⟨pktCfg0, 0x20⟩,
  ⟨paCfg0, 0x02⟩, ⟨ifMixCfg, 0x00⟩, ⟨tocCfg, 0x0A⟩, ⟨freq2, 0x6C⟩, ⟨freq1, 0x80⟩, ⟨fsDig1, 0x00⟩,
  ⟨fsDig0, 0x5F⟩, ⟨fsCal0, 0x0E⟩, ⟨fsChp, 0x35⟩, ⟨fsDivtwo, 0x03⟩, ⟨fsDsm0, 0x33⟩, ⟨fsDvc0, 0x17⟩,
  ⟨fsPfd, 0x50⟩, ⟨fsPre, 0x6E⟩, ⟨fsRegDivCml, 0x14⟩, ⟨fsSpare, 0xAC⟩, ⟨xosc5, 0x0E⟩, ⟨xosc3, 0xC7⟩,
  ⟨xosc1, 0x07⟩, ⟨partnumber, 0x58⟩, ⟨partversion, 0x21⟩, ⟨serialStatus, 0x08⟩,
  ⟨modemStatus1, 0x10⟩, ⟨xoscTest1, 0x00⟩]

def burst4gfsk200k : List RegisterSetting := [
  ⟨iocfg3, 0xB0⟩, ⟨iocfg2, 0x06⟩, ⟨iocfg1, 0xB0⟩, ⟨iocfg0, 0x40⟩, ⟨syncCfg1, 0x07⟩,
  ⟨deviationM, 0x53⟩, ⟨modcfgDevE, 0x2F⟩, ⟨dcfiltCfg, 0x04⟩, ⟨preambleCfg1, 0x18⟩,
  ⟨freqIfCfg, 0x00⟩, ⟨iqic, 0x00⟩, ⟨chanBw, 0x01⟩, ⟨mdmcfg0, 0x05⟩, ⟨symbolRate2, 0xA9⟩,
  ⟨symbolRate1, 0x99⟩, ⟨symbolRate0, 0x9A⟩, ⟨agcRef, 0x3C⟩, ⟨agcCsThr, 0xEC⟩, ⟨agcCfg3, 0x83⟩,
  ⟨agcCfg2, 0x60⟩, ⟨agcCfg1, 0xA9⟩, ⟨agcCfg0, 0xC0⟩, ⟨fifoCfg, 0x00⟩, ⟨settlingCfg, 0x03⟩,
  ⟨fsCfg, 0x12⟩, ⟨pktCfg0, 0x20⟩, ⟨paCfg0, 0x02⟩, ⟨pktLen, 0xFF⟩, ⟨ifMixCfg, 0x00⟩, ⟨tocCfg, 0x0A⟩,
  ⟨freq2, 0x6C⟩, ⟨freq1, 0x80⟩, ⟨fsDig1, 0x00⟩, ⟨fsDig0, 0x5F⟩, ⟨fsCal0, 0x0E⟩, ⟨fsDivtwo, 0x03⟩,
  ⟨fsDsm0, 0x33⟩, ⟨fsDvc0, 0x17⟩, ⟨fsPfd, 0x50⟩, ⟨fsPre, 0x6E⟩, ⟨fsRegDivCml, 0x14⟩,
  ⟨fsSpare, 0xAC⟩, ⟨xosc5, 0x0E⟩, ⟨xosc3, 0xC7⟩, ⟨xosc1, 0x07⟩, ⟨partnumber, 0x58⟩,
  ⟨partversion, 0x21⟩, ⟨modemStatus1, 0x10⟩, ⟨xoscTest1, 0x00⟩]

/-- The tables of `runTX_2GFSK_500`: for an index of 0, and for any other. -/
def continuous2gfsk500 : List RegisterSetting := [
  ⟨iocfg3, 0xB0⟩, ⟨iocfg2, 0x08⟩, ⟨iocfg1, 0xB0⟩, ⟨iocfg0, 0x09⟩, ⟨syncCfg1, 0x08⟩,
  ⟨deviationM, 0x99⟩, ⟨modcfgDevE, 0x0D⟩, ⟨dcfiltCfg, 0x15⟩, ⟨preambleCfg1, 0x00⟩,
  ⟨freqIfCfg, 0x39⟩, ⟨iqic, 0x00⟩, ⟨chanBw, 0x02⟩, ⟨mdmcfg1, 0x06⟩, ⟨mdmcfg0, 0x05⟩,
  ⟨symbolRate2, 0x30⟩, ⟨symbolRate1, 0x62⟩, ⟨symbolRate0, 0x4E⟩, ⟨agcRef, 0x3C⟩, ⟨agcCsThr, 0xEF⟩,
  ⟨agcCfg1, 0xA9⟩, ⟨agcCfg0, 0xC0⟩, ⟨fifoCfg, 0x00⟩, ⟨settlingCfg, 0x03⟩, ⟨fsCfg, 0x12⟩,
  ⟨pktCfg2, 0x05⟩, ⟨pktCfg1, 0x00⟩, ⟨pktCfg0, 0x20⟩, ⟨paCfg0, 0x7E⟩, ⟨ifMixCfg, 0x00⟩,
  ⟨tocCfg, 0x0A⟩, ⟨freq2, 0x6C⟩, ⟨freq1, 0x80⟩, ⟨fsDig1, 0x00⟩, ⟨fsDig0, 0x5F⟩, ⟨fsCal0, 0x0E⟩,
  ⟨fsChp, 0x35⟩, ⟨fsDivtwo, 0x03⟩, ⟨fsDsm0, 0x33⟩, ⟨fsDvc0, 0x17⟩, ⟨fsPfd, 0x50⟩, ⟨fsPre, 0x6E⟩,
  ⟨fsRegDivCml, 0x14⟩, ⟨fsSpare, 0xAC⟩, ⟨xosc5, 0x0E⟩, ⟨xosc3, 0xC7⟩, ⟨xosc1, 0x07⟩,
  ⟨partnumber, 0x58⟩, ⟨partversion, 0x21⟩, ⟨serialStatus, 0x08⟩, ⟨modemStatus1, 0x10⟩,
  ⟨xoscTest1, 0x00⟩]

def burst2gfsk500 : List RegisterSetting := [
  ⟨iocfg3, 0xB0⟩, ⟨iocfg2, 0x06⟩, ⟨iocfg1, 0xB0⟩, ⟨iocfg0, 0x40⟩, ⟨syncCfg1, 0x08⟩,
  ⟨deviationM, 0x99⟩, ⟨modcfgDevE, 0x0D⟩, ⟨dcfiltCfg, 0x15⟩, ⟨preambleCfg1, 0x18⟩,
  ⟨freqIfCfg, 0x39⟩, ⟨iqic, 0x00⟩, ⟨chanBw, 0x02⟩, ⟨mdmcfg0, 0x05⟩, ⟨symbolRate2, 0x30⟩,
  ⟨symbolRate1, 0x62⟩, ⟨symbolRate0, 0x4E⟩, ⟨agcRef, 0x3C⟩, ⟨agcCsThr, 0xEF⟩, ⟨agcCfg1, 0xA9⟩,
  ⟨agcCfg0, 0xC0⟩, ⟨fifoCfg, 0x00⟩, ⟨settlingCfg, 0x03⟩, ⟨fsCfg, 0x12⟩, ⟨pktCfg0, 0x20⟩,
  ⟨paCfg0, 0x7E⟩, ⟨pktLen, 0xFF⟩, ⟨ifMixCfg, 0x00⟩, ⟨tocCfg, 0x0A⟩, ⟨freq2, 0x6C⟩, ⟨freq1, 0x80⟩,
  ⟨fsDig1, 0x00⟩, ⟨fsDig0, 0x5F⟩, ⟨fsCal0, 0x0E⟩, ⟨fsDivtwo, 0x03⟩, ⟨fsDsm0, 0x33⟩, ⟨fsDvc0, 0x17⟩,
  ⟨fsPfd, 0x50⟩, ⟨fsPre, 0x6E⟩, ⟨fsRegDivCml, 0x14⟩, ⟨fsSpare, 0xAC⟩, ⟨xosc5, 0x0E⟩, ⟨xosc3, 0xC7⟩,
  ⟨xosc1, 0x07⟩, ⟨partnumber, 0x58⟩, ⟨partversion, 0x21⟩, ⟨modemStatus1, 0x10⟩, ⟨xoscTest1, 0x00⟩]

/-- The tables of `runTX_2GFSK_50k`: for an index of 0, and for any other. -/
def continuous2gfsk50k : List RegisterSetting := [
  ⟨iocfg3, 0xB0⟩, ⟨iocfg2, 0x08⟩, ⟨iocfg1, 0xB0⟩, ⟨iocfg0, 0x09⟩, ⟨syncCfg1, 0x08⟩,
  ⟨deviationM, 0x99⟩, ⟨modcfgDevE, 0x0D⟩, ⟨dcfiltCfg, 0x15⟩, ⟨preambleCfg1, 0x00⟩,
  ⟨freqIfCfg, 0x39⟩, ⟨iqic, 0x00⟩, ⟨chanBw, 0x02⟩, ⟨mdmcfg1, 0x06⟩, ⟨mdmcfg0, 0x05⟩,
  ⟨symbolRate2, 0x99⟩, ⟨symbolRate1, 0x99⟩, ⟨symbolRate0, 0x9A⟩, ⟨agcRef, 0x3C⟩, ⟨agcCsThr, 0xEF⟩,
  ⟨agcCfg1, 0xA9⟩, ⟨agcCfg0, 0xC0⟩, ⟨fifoCfg, 0x00⟩, ⟨settlingCfg, 0x03⟩, ⟨fsCfg, 0x12⟩,
  ⟨pktCfg2, 0x05⟩, ⟨pktCfg1, 0x00⟩, ⟨pktCfg0, 0x20⟩, ⟨paCfg0, 0x7B⟩, ⟨ifMixCfg, 0x00⟩,
  ⟨tocCfg, 0x0A⟩, ⟨freq2, 0x6C⟩, ⟨freq1, 0x80⟩, ⟨fsDig1, 0x00⟩, ⟨fsDig0, 0x5F⟩, ⟨fsCal0, 0x0E⟩,
  ⟨fsChp, 0x35⟩, ⟨fsDivtwo, 0x03⟩, ⟨fsDsm0, 0x33⟩, ⟨fsDvc0, 0x17⟩, ⟨fsPfd, 0x50⟩, ⟨fsPre, 0x6E⟩,
  ⟨fsRegDivCml, 0x14⟩, ⟨fsSpare, 0xAC⟩, ⟨xosc5, 0x0E⟩, ⟨xosc3, 0xC7⟩, ⟨xosc1, 0x07⟩,
  ⟨partnumber, 0x58⟩, ⟨partversion, 0x21⟩, ⟨serialStatus, 0x08⟩, ⟨modemStatus1, 0x10⟩,
  ⟨xoscTest1, 0x00⟩]

def burst2gfsk50k : List RegisterSetting := [
  ⟨iocfg3, 0xB0⟩, ⟨iocfg2, 0x06⟩, ⟨iocfg1, 0xB0⟩, ⟨iocfg0, 0x40⟩, ⟨syncCfg1, 0x08⟩,
  ⟨deviationM, 0x99⟩, ⟨modcfgDevE, 0x0D⟩, ⟨dcfiltCfg, 0x15⟩, ⟨preambleCfg1, 0x18⟩,
  ⟨freqIfCfg, 0x39⟩, ⟨iqic, 0x00⟩, ⟨chanBw, 0x02⟩, ⟨mdmcfg0, 0x05⟩, ⟨symbolRate2, 0x99⟩,
  ⟨symbolRate1, 0x99⟩, ⟨symbolRate0, 0x9A⟩, ⟨agcRef, 0x3C⟩, ⟨agcCsThr, 0xEF⟩, ⟨agcCfg1, 0xA9⟩,
  ⟨agcCfg0, 0xC0⟩, ⟨fifoCfg, 0x00⟩, ⟨settlingCfg, 0x03⟩, ⟨fsCfg, 0x12⟩, ⟨pktCfg0, 0x20⟩,
  ⟨paCfg0, 0x7B⟩, ⟨pktLen, 0xFF⟩, ⟨ifMixCfg, 0x00⟩, ⟨tocCfg, 0x0A⟩, ⟨freq2, 0x6C⟩, ⟨freq1, 0x80⟩,
  ⟨fsDig1, 0x00⟩, ⟨fsDig0, 0x5F⟩, ⟨fsCal0, 0x0E⟩, ⟨fsDivtwo, 0x03⟩, ⟨fsDsm0, 0x33⟩, ⟨fsDvc0, 0x17⟩,
  ⟨fsPfd, 0x50⟩, ⟨fsPre, 0x6E⟩, ⟨fsRegDivCml, 0x14⟩, ⟨fsSpare, 0xAC⟩, ⟨xosc5, 0x0E⟩, ⟨xosc3, 0xC7⟩,
  ⟨xosc1, 0x07⟩, ⟨partnumber, 0x58⟩, ⟨partversion, 0x21⟩, ⟨modemStatus1, 0x10⟩, ⟨xoscTest1, 0x00⟩]

/-- The tables of `runTX_2FSK_300`: for an index of 0, and for any other. -/
def continuous2fsk300 : List RegisterSetting := [
  ⟨iocfg3, 0xB0⟩, ⟨iocfg2, 0x08⟩, ⟨iocfg1, 0xB0⟩, ⟨iocfg0, 0x09⟩, ⟨syncCfg1, 0x0B⟩,
  ⟨modcfgDevE, 0x01⟩, ⟨dcfiltCfg, 0x1C⟩, ⟨preambleCfg1, 0x00⟩, ⟨iqic, 0xC6⟩, ⟨chanBw, 0x69⟩,
  ⟨mdmcfg1, 0x06⟩, ⟨mdmcfg0, 0x05⟩, ⟨symbolRate2, 0x23⟩, ⟨agcRef, 0x15⟩, ⟨agcCsThr, 0x19⟩,
  ⟨agcCfg1, 0xA9⟩, ⟨agcCfg0, 0xCF⟩, ⟨fifoCfg, 0x00⟩, ⟨settlingCfg, 0x03⟩, ⟨fsCfg, 0x12⟩,
  ⟨pktCfg2, 0x05⟩, ⟨pktCfg1, 0x00⟩, ⟨pktCfg0, 0x20⟩, ⟨paCfg0, 0x7E⟩, ⟨ifMixCfg, 0x00⟩,
  ⟨freqoffCfg, 0x22⟩, ⟨freq2, 0x6C⟩, ⟨freq1, 0x80⟩, ⟨fsDig1, 0x00⟩, ⟨fsDig0, 0x5F⟩, ⟨fsCal0, 0x0E⟩,
  ⟨fsChp, 0x35⟩, ⟨fsDivtwo, 0x03⟩, ⟨fsDsm0, 0x33⟩, ⟨fsDvc0, 0x17⟩, ⟨fsPfd, 0x50⟩, ⟨fsPre, 0x6E⟩,
  ⟨fsRegDivCml, 0x14⟩, ⟨fsSpare, 0xAC⟩, ⟨xosc5, 0x0E⟩, ⟨xosc3, 0xC7⟩, ⟨xosc1, 0x07⟩,
  ⟨partnumber, 0x58⟩, ⟨partversion, 0x21⟩, ⟨serialStatus, 0x08⟩, ⟨modemStatus1, 0x10⟩,
  ⟨xoscTest1, 0x00⟩]

def burst2fsk300 : List RegisterSetting := [
  ⟨iocfg3, 0xB0⟩, ⟨iocfg2, 0x06⟩, ⟨iocfg1, 0xB0⟩, ⟨iocfg0, 0x40⟩, ⟨syncCfg1, 0x0B⟩,
  ⟨modcfgDevE, 0x01⟩, ⟨dcfiltCfg, 0x1C⟩, ⟨iqic, 0xC6⟩, ⟨chanBw, 0x69⟩, ⟨mdmcfg0, 0x05⟩,
  ⟨symbolRate2, 0x23⟩, ⟨agcRef, 0x15⟩, ⟨agcCsThr, 0x19⟩, ⟨agcCfg1, 0xA9⟩, ⟨agcCfg0, 0xCF⟩,
  ⟨fifoCfg, 0x00⟩, ⟨settlingCfg, 0x03⟩, ⟨fsCfg, 0x12⟩, ⟨pktCfg0, 0x20⟩, ⟨paCfg0, 0x7E⟩,
  ⟨pktLen, 0xFF⟩, ⟨ifMixCfg, 0x00⟩, ⟨freqoffCfg, 0x22⟩, ⟨freq2, 0x6C⟩, ⟨freq1, 0x80⟩,
  ⟨fsDig1, 0x00⟩, ⟨fsDig0, 0x5F⟩, ⟨fsCal0, 0x0E⟩, ⟨fsDivtwo, 0x03⟩, ⟨fsDsm0, 0x33⟩, ⟨fsDvc0, 0x17⟩,
  ⟨fsPfd, 0x50⟩, ⟨fsPre, 0x6E⟩, ⟨fsRegDivCml, 0x14⟩, ⟨fsSpare, 0xAC⟩, ⟨xosc5, 0x0E⟩, ⟨xosc3, 0xC7⟩,
  ⟨xosc1, 0x07⟩, ⟨partnumber, 0x58⟩, ⟨partversion, 0x21⟩, ⟨modemStatus1, 0x10⟩, ⟨xoscTest1, 0x00⟩]

/-- The tables of `runTX_2FSK_1_2k`: for an index of 0, and for any other. -/
def continuous2fsk1_2k : List RegisterSetting := [
  ⟨iocfg3, 0xB0⟩, ⟨iocfg2, 0x08⟩, ⟨iocfg1, 0xB0⟩, ⟨iocfg0, 0x09⟩, ⟨syncCfg1, 0x0B⟩,
  ⟨dcfiltCfg, 0x1C⟩, ⟨preambleCfg1, 0x00⟩, ⟨iqic, 0xC6⟩, ⟨chanBw, 0x19⟩, ⟨mdmcfg1, 0x06⟩,
  ⟨mdmcfg0, 0x05⟩, ⟨agcRef, 0x20⟩, ⟨agcCsThr, 0x19⟩, ⟨agcCfg1, 0xA9⟩, ⟨agcCfg0, 0xCF⟩,
  ⟨fifoCfg, 0x00⟩, ⟨settlingCfg, 0x03⟩, ⟨fsCfg, 0x12⟩, ⟨pktCfg2, 0x05⟩, ⟨pktCfg1, 0x00⟩,
  ⟨pktCfg0, 0x20⟩, ⟨paCfg0, 0x7E⟩, ⟨ifMixCfg, 0x00⟩, ⟨freqoffCfg, 0x22⟩, ⟨freq2, 0x6C⟩,
  ⟨freq1, 0x80⟩, ⟨fsDig1, 0x00⟩, ⟨fsDig0, 0x5F⟩, ⟨fsCal0, 0x0E⟩, ⟨fsDivtwo, 0x03⟩, ⟨fsDsm0, 0x33⟩,
  ⟨fsDvc0, 0x17⟩, ⟨fsPfd, 0x50⟩, ⟨fsPre, 0x6E⟩, ⟨fsRegDivCml, 0x14⟩, ⟨fsSpare, 0xAC⟩, ⟨xosc5, 0x0E⟩,
  ⟨xosc3, 0xC7⟩, ⟨xosc1, 0x07⟩, ⟨partnumber, 0x58⟩, ⟨partversion, 0x21⟩, ⟨serialStatus, 0x08⟩,
  ⟨modemStatus1, 0x10⟩, ⟨xoscTest1, 0x00⟩]

def burst2fsk1_2k : List RegisterSetting := [
  ⟨iocfg3, 0xB0⟩, ⟨iocfg2, 0x06⟩, ⟨iocfg1, 0xB0⟩, ⟨iocfg0, 0x40⟩, ⟨syncCfg1, 0x0B⟩,
  ⟨dcfiltCfg, 0x1C⟩, ⟨iqic, 0xC6⟩, ⟨chanBw, 0x19⟩, ⟨mdmcfg0, 0x05⟩, ⟨agcRef, 0x20⟩,
  ⟨agcCsThr, 0x19⟩, ⟨agcCfg1, 0xA9⟩, ⟨agcCfg0, 0xCF⟩, ⟨fifoCfg, 0x00⟩, ⟨settlingCfg, 0x03⟩,
  ⟨fsCfg, 0x12⟩, ⟨pktCfg0, 0x20⟩, ⟨paCfg0, 0x7E⟩, ⟨pktLen, 0xFF⟩, ⟨ifMixCfg, 0x00⟩,
  ⟨freqoffCfg, 0x22⟩, ⟨freq2, 0x6C⟩, ⟨freq1, 0x80⟩, ⟨fsDig1, 0x00⟩, ⟨fsDig0, 0x5F⟩, ⟨fsCal0, 0x0E⟩,
  ⟨fsDivtwo, 0x03⟩, ⟨fsDsm0, 0x33⟩, ⟨fsDvc0, 0x17⟩, ⟨fsPfd, 0x50⟩, ⟨fsPre, 0x6E⟩,
  ⟨fsRegDivCml, 0x14⟩, ⟨fsSpare, 0xAC⟩, ⟨xosc5, 0x0E⟩, ⟨xosc3, 0xC7⟩, ⟨xosc1, 0x07⟩,
  ⟨partnumber, 0x58⟩, ⟨partversion, 0x21⟩, ⟨modemStatus1, 0x10⟩, ⟨xoscTest1, 0x00⟩]

/-! ### All of them -/

/-- The tables that are loaded before a burst. -/
def burstTables : List (List RegisterSetting) := [
  settings4gfsk500, settings2fsk300, burst4gfsk500, burst4gfsk200k, burst2gfsk500, burst2gfsk50k,
  burst2fsk300, burst2fsk1_2k]

/-- The tables for continuous transmission. -/
def continuousTables : List (List RegisterSetting) := [
  continuous4gfsk500, continuous4gfsk200k, continuous2gfsk500, continuous2gfsk50k,
  continuous2fsk300, continuous2fsk1_2k]

/-- Each is a table the loaders are meant for. -/
theorem inSpaces_testTables :
    ∀ t ∈ burstTables ++ continuousTables, t ≠ [] ∧ t.length ≤ 255 ∧ ∀ r ∈ t, InSpaces r.addr := by
  decide +kernel

/-- The registers in which the two modes of a spectrum test may differ: the pins, the preamble, the
packet engine, and the charge pump. -/
def modeRegisters : List ℕ :=
  [iocfg2, iocfg0, preambleCfg1, mdmcfg1, pktCfg2, pktCfg1, pktLen, fsChp, serialStatus].map
    UInt16.toNat

/-- A table without its settings of some registers. -/
def without (addrs : List ℕ) (settings : List RegisterSetting) : List RegisterSetting :=
  settings.filter fun r => r.addr.toNat ∉ addrs

/-- For any other register they do not matter. -/
theorem lastSetting_without {addrs : List ℕ} {a : ℕ} (ha : a ∉ addrs)
    (settings : List RegisterSetting) :
    lastSetting (without addrs settings) a = lastSetting settings a := by
  induction settings using List.reverseRecOn with
  | nil => rfl
  | append_singleton settings r ih =>
    rw [lastSetting, without, ← List.filter_reverse, lastSetting, List.reverse_append,
      List.reverse_singleton, List.singleton_append, List.filter_cons, List.find?_cons]
    rw [lastSetting, without, ← List.filter_reverse, lastSetting] at ih
    by_cases hr : r.addr.toNat = a
    · subst hr
      simp [ha]
    · simp only [hr, decide_false]
      split_ifs with hmem
      · rw [List.find?_cons]
        simp only [hr, decide_false]
        exact ih
      · exact ih

/-- **The two modes of a spectrum test modulate alike.** Whatever the reset values, the registers
the two tables of a handler leave are the same outside `modeRegisters`. -/
theorem modes_agree (regs : CArray) :
    ∀ t ∈ continuousTables.zip (burstTables.drop 2), ∀ a ∉ modeRegisters,
      applyTable regs t.1 a = applyTable regs t.2 a := by
  have hsame : ∀ t ∈ continuousTables.zip (burstTables.drop 2),
      without modeRegisters t.1 = without modeRegisters t.2 := by
    decide +kernel
  intro t ht a ha
  rw [applyTable_apply, applyTable_apply, ← lastSetting_without ha t.1, hsame t ht,
    lastSetting_without ha]

end Wise1511
