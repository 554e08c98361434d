import Mathlib

namespace ExtConn

-- Error codes the component itself returns or tests; every other code of the
-- SD/MMC driver is `other`.
inductive EspErr where
  | ok | fail | noMem | invalidArg | invalidState | invalidSize | timeout | invalidResponse | notFinished
  | other (code : Int)
  deriving DecidableEq, Repr

-- sdio_host_reg.h
def txBufferMax : UInt32 := 0x1000
def txBufferMask : UInt32 := 0xFFF
def rxByteMax : UInt32 := 0x100000
def rxByteMask : UInt32 := 0xFFFFF
def espSdioSendOffset : UInt32 := 16
def espSlaveCmd53EndAddr : UInt32 := 0x1f800

def espSdioTokenRdata : UInt32 := 0x44
def espSdioSlc1HostPf : UInt32 := 0x4C
def espSdioIntRaw : UInt32 := 0x50
def espSdioIntRaw1 : UInt32 := 0x54
def espSdioPktLen : UInt32 := 0x60
def espSdioStateW0 : UInt32 := 0x64
def espSdioConfigW1 : UInt32 := 0x70
def espSdioConfigW5 : UInt32 := 0x80
def espSdioWinCmd : UInt32 := 0x84
def espSdioSlc0IntClr : UInt32 := 0xD4
def espSdioSlc1IntClr : UInt32 := 0xD8
def espSdioFunc1IntEna : UInt32 := 0xDC
def espSlcConf1Reg : UInt32 := 0x60
def espSlc0LenConfReg : UInt32 := 0xE4

def bit (n : UInt32) : UInt32 := 1 <<< n

def slchostSlc0RxNewPacketIntRaw : UInt32 := bit 23
def slchostSlc1BtRxNewPacketIntRaw : UInt32 := bit 25
def slchostSlc1TohostBit0IntRaw : UInt32 := bit 0
def slchostSlc1TohostBit0IntClr : UInt32 := bit 0
def slchostFn1GpioSdioIntEna : UInt32 := bit 25
def slcSlc0TxStitchEn : UInt32 := bit 5
def slcSlc0RxStitchEn : UInt32 := bit 6
def slcSlc0TxPacketLoadEn : UInt32 := bit 24

-- The card common control registers, as the SD protocol lays them out.
def sdIoCccrFnEnable : UInt32 := 0x02
def sdIoCccrIntEnable : UInt32 := 0x04
def sdIoCccrBusWidth : UInt32 := 0x07
def sdIoCccrBlksizel : UInt32 := 0x10
def sdIoCccrBlksizeh : UInt32 := 0x11
def cccrBusWidthEcsi : UInt8 := 0x20

-- ext_sdio_adapter.h
def extConnWifiSdioFunc : UInt32 := 1
def extConnBtSdioFunc : UInt32 := 2

-- sip2_common.h: packet types, the command and event identifiers in use, and
-- the sizes of the packed structures.
def sipCtrl : UInt8 := 0
def sipData : UInt8 := 1
def sipDataAmpdu : UInt8 := 2
def sipTypeMask : UInt8 := 0x0f
def sipHdrFSync : UInt8 := 0x4

def sipCmdWriteMemory : UInt32 := 1
def sipCmdWriteReg : UInt32 := 3
def sipCmdBootup : UInt32 := 5
def sipCmdInit : UInt32 := 7
def sipCmdConfig : UInt32 := 10
def sipCmdLoopback : UInt32 := 12
def sipCmdSetsta : UInt32 := 23
def sipCmdTest : UInt32 := 29

def sipEvtTargetOn : UInt8 := 0
def sipEvtBootup : UInt8 := 1
def sipEvtCreditRpt : UInt8 := 5
def sipEvtCoexState : UInt8 := 24

def sipCtrlHdrLen : UInt32 := 12
def sipBootBufSize : UInt32 := 256
def sizeofSipCmdWriteMemory : UInt32 := 8
def sizeofSipCmdBootup : UInt32 := 8
def sizeofSipEvtBootup2 : Nat := 16
def sizeofSipEvtCoexState : Nat := 8

-- if_ebuf.h
def esfBufTxPb : UInt8 := 1
def esfBufMgmtLbuf : UInt8 := 2
def esfBufMgmtSbuf : UInt8 := 3
def esfBufTxSip : UInt8 := 5
def esfBufTxSipTest : UInt8 := 10
def ppFAmpdu : UInt32 := 0x00040000
def ppTxcbScanProbereqId : UInt32 := 1

-- esp_sip.h: `roundup(x, y)` as the macro computes it, in 32-bit arithmetic.
def roundup (x y : UInt32) : UInt32 := (x + (y - 1)) &&& ~~~(y - 1)

-- The two build options that select code.
structure Build where
  wifi : Bool
  bt : Bool
  deriving DecidableEq, Repr

-- esp_extconn.h
def extConnFunctionsEnable (cfg : Build) : UInt8 :=
  if cfg.wifi ∧ cfg.bt then 3 else if cfg.bt then 2 else 1

-- trans_recv.c and trans_wifi.c
def recvBufLen : UInt32 := 32 * 1024
def recvWaitMs : UInt32 := 50
def wifiSendBufferLen : UInt32 := 2048

end ExtConn
