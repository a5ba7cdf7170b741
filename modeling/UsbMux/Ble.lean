/-
# The BLE channel

`ble.c`: the queries and commands of the BLE management channel and its
events. Its `transact` is the one of `uart.c` with the channel fixed and no
header to store.

Key definitions: `bleTransact`, `bleGetCap`, `bleSetScanParam`,
`bleReadEvent`, `bleParseScanResult`.
-/
import UsbMux.Transact

namespace UsbMux

open Buffer LittleEndian

variable {σ : Type} (host : Host σ)

def BLE_GET_CAP : UInt8 := 0x01
def BLE_SET_SCAN_PARAM : UInt8 := 0x02
def BLE_SCAN_START : UInt8 := 0x03
def BLE_SCAN_STOP : UInt8 := 0x04

/-- `transact` of `ble.c`. -/
def bleTransact (dev : Device) (opcode : UInt8) (payload : Option Bytes) (payloadLen : ℕ)
    (rspPayload : Option Bytes) (rspCapacity : ℕ) (rspLen : Option ℕ) (s : σ) : Reply σ Out :=
  transact host dev ChannelType.bleMgmt.code 0 MsgType.cmd.code opcode payload payloadLen
    ⟨none, rspPayload, rspLen⟩ rspCapacity s

/-- `ch32mux_ble_cap_t`. -/
structure BleCap where
  maxLinks : UInt8
  supportsScan : UInt8
  supportsConnect : UInt8
  supportsGatt : UInt8
  scanInterval : UInt16
  scanWindow : UInt16
  deriving DecidableEq, Repr

def parseBleCap (p : Bytes) : BleCap :=
  ⟨p.getD 0 0, p.getD 1 0, p.getD 2 0, p.getD 3 0, readLe16 p 4, readLe16 p 6⟩

/-- `ch32mux_ble_get_cap`. -/
def bleGetCap (dev : Device) (cap : Option BleCap) (s : σ) : Reply σ (Option BleCap) :=
  query host (fun out capacity s => bleTransact host dev BLE_GET_CAP none 0 out.payload capacity out.len s)
    8 parseBleCap dev cap s

/-- The payload of `BLE_SET_SCAN_PARAM`. -/
def scanParamBytes (interval window duration : UInt16) (mode active whiteList : UInt8) : Bytes :=
  ((((writeLe16 (writeLe16 (writeLe16 (List.replicate 9 0) 0 interval) 2 window) 4 duration).set 6 mode).set
    7 active).set 8 whiteList)

/-- `ch32mux_ble_set_scan_param`. -/
def bleSetScanParam (dev : Device) (interval window duration : UInt16) (mode active whiteList : UInt8)
    (s : σ) : Reply σ Out :=
  bleTransact host dev BLE_SET_SCAN_PARAM
    (some (scanParamBytes interval window duration mode active whiteList)) 9 none 0 none s

/-- `ch32mux_ble_scan_start`. -/
def bleScanStart (dev : Device) (s : σ) : Reply σ Out :=
  bleTransact host dev BLE_SCAN_START none 0 none 0 none s

/-- `ch32mux_ble_scan_stop`. -/
def bleScanStop (dev : Device) (s : σ) : Reply σ Out :=
  bleTransact host dev BLE_SCAN_STOP none 0 none 0 none s

/-- `ch32mux_ble_scan_result_t`. -/
structure ScanResult where
  addrType : UInt8
  eventType : UInt8
  rssi : Int8
  advLen : UInt8
  addr : Bytes
  advPrefix : Bytes
  deriving DecidableEq, Repr

/-- `ch32mux_ble_parse_scan_result`. -/
def bleParseScanResult (payload : Bytes) (payloadLen : ℕ) : Except Result ScanResult :=
  if payloadLen < 16 then .error .errProto
  else .ok ⟨payload.getD 0 0, payload.getD 1 0, (payload.getD 2 0).toInt8, payload.getD 3 0,
    (payload.drop 4).take 6, (payload.drop 10).take 6⟩

/-- What `ch32mux_ble_read_event` does with the header it has read. -/
def acceptEvent (capacity : ℕ) (header : Header) (frame : Bytes) (out : Out) : Result × Out :=
  if header.msgType ≠ MsgType.evt.code then (.errProto, out)
  else if header.payloadLen.toNat > capacity then (.errOverflow, out)
  else if header.payloadLen ≠ 0 ∧ out.payload.isNone then (.errArg, out)
  else (.ok, out.store header frame)

/-- `ch32mux_ble_read_event`; the caller's objects are the header, the
payload and its length. -/
def bleReadEvent (dev : Device) (out : Out) (payloadCapacity : ℕ) (s : σ) : Result × Out × σ :=
  if out.len.isNone then (.errArg, out, s)
  else receive host dev (acceptEvent payloadCapacity) out s

end UsbMux
