/-
# The SYS and UART channels

`uart.c`: the queries and commands of the SYS and UART control channels, each
one `transact`, and the data of the UART ports, which needs no answer.

Key definitions: `uartOpen`, `uartClose`, `uartWrite`, `uartRead` and the
queries `sysGetDevInfo`, `sysGetCaps`, `uartGetPortCap`, `uartGetStats`.
-/
import UsbMux.Transact

namespace UsbMux

open Buffer LittleEndian

variable {σ : Type} (host : Host σ)

def SYS_GET_DEV_INFO : UInt8 := 0x01
def SYS_GET_CAPS : UInt8 := 0x02
def SYS_HEARTBEAT : UInt8 := 0x07
def UART_GET_PORT_CAP : UInt8 := 0x01
def UART_OPEN : UInt8 := 0x03
def UART_CLOSE : UInt8 := 0x04
def UART_GET_STATS : UInt8 := 0x0C

def readLe32 (src : Bytes) (off : ℕ) : UInt32 :=
  (src.getD off 0).toUInt32 ||| ((src.getD (off + 1) 0).toUInt32 <<< 8) |||
    ((src.getD (off + 2) 0).toUInt32 <<< 16) ||| ((src.getD (off + 3) 0).toUInt32 <<< 24)

def writeLe32 (dst : Bytes) (off : ℕ) (value : UInt32) : Bytes :=
  (((dst.set off (value &&& 0xFF).toUInt8).set (off + 1) ((value >>> 8) &&& 0xFF).toUInt8).set
    (off + 2) ((value >>> 16) &&& 0xFF).toUInt8).set (off + 3) ((value >>> 24) &&& 0xFF).toUInt8

/-! ### Records -/

/-- `ch32mux_dev_info_t`. -/
structure DevInfo where
  protoVersion : UInt8
  fwMajor : UInt8
  fwMinor : UInt8
  fwPatch : UInt8
  uartPortCount : UInt8
  bleMaxLinks : UInt8
  reserved0 : UInt8
  reserved1 : UInt8
  deriving DecidableEq, Repr

/-- `memcpy(info, payload, sizeof(*info))`: eight bytes in order. -/
def parseDevInfo (p : Bytes) : DevInfo :=
  ⟨p.getD 0 0, p.getD 1 0, p.getD 2 0, p.getD 3 0, p.getD 4 0, p.getD 5 0, p.getD 6 0, p.getD 7 0⟩

/-- `ch32mux_caps_t`. -/
structure Caps where
  capsBitmap : UInt32
  uartPortCount : UInt8
  bleMaxLinks : UInt8
  netReserved : UInt8
  reserved0 : UInt8
  deriving DecidableEq, Repr

def parseCaps (p : Bytes) : Caps :=
  ⟨readLe32 p 0, p.getD 4 0, p.getD 5 0, p.getD 6 0, p.getD 7 0⟩

/-- `ch32mux_uart_line_coding_t`. -/
structure LineCoding where
  baudrate : UInt32
  dataBits : UInt8
  parity : UInt8
  stopBits : UInt8
  deriving DecidableEq, Repr

/-- `ch32mux_uart_port_cap_t`. -/
structure PortCap where
  logicPort : UInt8
  phyUartId : UInt8
  state : UInt8
  reserved0 : UInt8
  rxCapacity : UInt16
  txCapacity : UInt16
  supportsLineCoding : UInt8
  supportsFlush : UInt8
  reserved1 : UInt8
  reserved2 : UInt8
  deriving DecidableEq, Repr

def parsePortCap (p : Bytes) : PortCap :=
  ⟨p.getD 0 0, p.getD 1 0, p.getD 2 0, p.getD 3 0, readLe16 p 4, readLe16 p 6, p.getD 8 0, p.getD 9 0,
    p.getD 10 0, p.getD 11 0⟩

/-- `ch32mux_uart_stats_t`. -/
structure UartStats where
  rxBytes : UInt32
  txBytes : UInt32
  dropRxBytes : UInt32
  dropTxBytes : UInt32
  state : UInt8
  dataBits : UInt8
  parity : UInt8
  stopBits : UInt8
  deriving DecidableEq, Repr

def parseUartStats (p : Bytes) : UartStats :=
  ⟨readLe32 p 0, readLe32 p 4, readLe32 p 8, readLe32 p 12, p.getD 16 0, p.getD 17 0, p.getD 18 0,
    p.getD 19 0⟩

/-! ### Queries and commands -/

/-- A request without payload on a channel of `uart.c`. -/
def uartCommand (channel : ChannelType) (chId opcode : UInt8) (dev : Device) (out : Out) (capacity : ℕ)
    (s : σ) : Reply σ Out :=
  transact host dev channel.code chId MsgType.cmd.code opcode none 0 out capacity s

/-- `ch32mux_sys_get_dev_info`. -/
def sysGetDevInfo (dev : Device) (info : Option DevInfo) (s : σ) : Reply σ (Option DevInfo) :=
  query host (uartCommand host .sys 0 SYS_GET_DEV_INFO dev) 8 parseDevInfo dev info s

/-- `ch32mux_sys_get_caps`. -/
def sysGetCaps (dev : Device) (caps : Option Caps) (s : σ) : Reply σ (Option Caps) :=
  query host (uartCommand host .sys 0 SYS_GET_CAPS dev) 8 parseCaps dev caps s

/-- `ch32mux_sys_heartbeat`; `response` is the caller's buffer and length. -/
def sysHeartbeat (dev : Device) (payload : Option Bytes) (payloadLen : ℕ) (response : Option Bytes)
    (responseCapacity : ℕ) (responseLen : Option ℕ) (s : σ) : Reply σ Out :=
  transact host dev ChannelType.sys.code 0 MsgType.cmd.code SYS_HEARTBEAT payload payloadLen
    ⟨none, response, responseLen⟩ responseCapacity s

/-- `ch32mux_uart_get_port_cap`. -/
def uartGetPortCap (dev : Device) (port : UInt8) (cap : Option PortCap) (s : σ) : Reply σ (Option PortCap) :=
  query host (uartCommand host .uartCtrl port UART_GET_PORT_CAP dev) 12 parsePortCap dev cap s

/-- `ch32mux_uart_get_stats`. -/
def uartGetStats (dev : Device) (port : UInt8) (stats : Option UartStats) (s : σ) :
    Reply σ (Option UartStats) :=
  query host (uartCommand host .uartCtrl port UART_GET_STATS dev) 20 parseUartStats dev stats s

/-- The line coding `ch32mux_uart_open` uses when it is given none. -/
def defaultLineCoding : LineCoding := ⟨115200, 8, 0, 1⟩

/-- The payload of `UART_OPEN`. -/
def lineCodingBytes (line : LineCoding) : Bytes :=
  (((((writeLe32 (List.replicate 8 0) 0 line.baudrate).set 4 line.dataBits).set 5 line.parity).set
    6 line.stopBits).set 7 0)

/-- `ch32mux_uart_open`. -/
def uartOpen (dev : Device) (port : UInt8) (line : Option LineCoding) (s : σ) : Reply σ Out :=
  transact host dev ChannelType.uartCtrl.code port MsgType.cmd.code UART_OPEN
    (some (lineCodingBytes (line.getD defaultLineCoding))) 8 ⟨none, none, none⟩ 0 s

/-- `ch32mux_uart_close`. -/
def uartClose (dev : Device) (port : UInt8) (s : σ) : Reply σ Out :=
  uartCommand host .uartCtrl port UART_CLOSE dev ⟨none, none, none⟩ 0 s

/-! ### Data -/

/-- `ch32mux_uart_write`: its result, the device and the host. -/
def uartWrite (dev : Device) (port : UInt8) (data : Option Bytes) (len : ℕ) (s : σ) : Result × Device × σ :=
  if data.isNone ∧ len ≠ 0 then (.errArg, dev, s)
  else
    let (seq, dev) := nextSeq dev
    let header := { Header.zero with
      seq := seq, chType := ChannelType.uartData.code, chId := port, msgType := MsgType.data.code, opcode := 0 }
    let b := buildFrame (host.stack s MAX_FRAME_LEN) MAX_FRAME_LEN 0 header data len
    if b.ret ≠ .ok then (b.ret, dev, s)
    else
      match writeFrame host dev b.dst b.frameLen s with
      | (ret, s) => (ret, dev, s)

/-- What `ch32mux_uart_read` does with the header it has read. -/
def acceptData (port : UInt8) (capacity : ℕ) (header : Header) (frame : Bytes) (out : Out) : Result × Out :=
  if header.chType ≠ ChannelType.uartData.code ∨ header.chId ≠ port ∨ header.msgType ≠ MsgType.data.code then
    (.errProto, out)
  else if header.payloadLen.toNat > capacity then (.errOverflow, out)
  else (.ok, out.store header frame)

/-- `ch32mux_uart_read`; the caller's objects are `data` and `len`. -/
def uartRead (dev : Device) (port : UInt8) (data : Option Bytes) (capacity : ℕ) (len : Option ℕ) (s : σ) :
    Result × Out × σ :=
  let out : Out := ⟨none, data, len⟩
  if data.isNone ∨ len.isNone then (.errArg, out, s)
  else receive host dev (acceptData port capacity) out s

end UsbMux
