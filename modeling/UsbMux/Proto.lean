/-
# The frame protocol

`proto.c`: a frame is a 24-byte header in little-endian order followed by its
payload, 512 bytes at most. The header carries a CRC of itself, taken with
its own CRC field zero. `encodeHeader` completes and writes a header,
`decodeHeader` checks and reads one, `buildFrame` puts a payload behind it.

A buffer argument is the list of bytes it points to, with the length the
caller passes beside it where the source takes one. An output argument is
returned with the value it holds when the function returns, so a failed call
shows what it left there. `none` is the null pointer where a caller of the
source may pass one.

Key definitions: `Header`, `checkHeaderShape`, `crc16`, `encodeHeader`,
`decodeHeader`, `buildFrame`, `parseIrqHint`.
-/
import UsbMux.Lib.Bytes
import Mathlib.Logic.Function.Iterate

namespace UsbMux

open Buffer LittleEndian

abbrev Bytes := List UInt8

/-! ### Constants -/

@[simp] abbrev EP_HINT_SIZE : ℕ := 8
@[simp] abbrev EP_PACKET_SIZE : ℕ := 64
@[simp] abbrev MAX_FRAME_LEN : ℕ := 512

def MAGIC : UInt16 := 0xA55A
def VERSION : UInt8 := 0x01
@[simp] abbrev HEADER_LEN : ℕ := 24
def IRQ_HINT_VERSION : UInt8 := 0x01

/-- `ch32mux_result_t`. -/
inductive Result
  | ok | errArg | errNoMem | errProto | errTimeout | errIo | errNotFound | errDeviceStatus | errOverflow
  deriving DecidableEq, Repr

/-- `ch32mux_channel_type_t`. -/
inductive ChannelType
  | sys | uartCtrl | uartData | bleMgmt | bleConn | netMgmt | netData
  deriving DecidableEq, Repr

def ChannelType.code : ChannelType → UInt8
  | sys => 0x00
  | uartCtrl => 0x01
  | uartData => 0x02
  | bleMgmt => 0x10
  | bleConn => 0x11
  | netMgmt => 0x20
  | netData => 0x21

/-- `ch32mux_msg_type_t`. -/
inductive MsgType
  | cmd | rsp | evt | data
  deriving DecidableEq, Repr

def MsgType.code : MsgType → UInt8
  | cmd => 0x01
  | rsp => 0x02
  | evt => 0x03
  | data => 0x04

/-- `CH32MUX_DEV_STATUS_OK`, the status of a request the device carried out. -/
def DEV_STATUS_OK : UInt16 := 0x0000

/-! ### The header -/

/-- `ch32mux_header_t`. -/
structure Header where
  magic : UInt16
  version : UInt8
  headerLen : UInt8
  totalLen : UInt16
  seq : UInt16
  refSeq : UInt16
  chType : UInt8
  chId : UInt8
  msgType : UInt8
  opcode : UInt8
  flags : UInt16
  status : UInt16
  payloadLen : UInt16
  headerCrc16 : UInt16
  reserved : UInt16
  deriving DecidableEq, Repr

/-- `memset(&header, 0, sizeof(header))`. -/
def Header.zero : Header := ⟨0, 0, 0, 0, 0, 0, 0, 0, 0, 0, 0, 0, 0, 0, 0⟩

@[simp] abbrev HDR_MAGIC_OFFSET : ℕ := 0
@[simp] abbrev HDR_VERSION_OFFSET : ℕ := 2
@[simp] abbrev HDR_HEADER_LEN_OFFSET : ℕ := 3
@[simp] abbrev HDR_TOTAL_LEN_OFFSET : ℕ := 4
@[simp] abbrev HDR_SEQ_OFFSET : ℕ := 6
@[simp] abbrev HDR_REF_SEQ_OFFSET : ℕ := 8
@[simp] abbrev HDR_CH_TYPE_OFFSET : ℕ := 10
@[simp] abbrev HDR_CH_ID_OFFSET : ℕ := 11
@[simp] abbrev HDR_MSG_TYPE_OFFSET : ℕ := 12
@[simp] abbrev HDR_OPCODE_OFFSET : ℕ := 13
@[simp] abbrev HDR_FLAGS_OFFSET : ℕ := 14
@[simp] abbrev HDR_STATUS_OFFSET : ℕ := 16
@[simp] abbrev HDR_PAYLOAD_LEN_OFFSET : ℕ := 18
@[simp] abbrev HDR_CRC16_OFFSET : ℕ := 20
@[simp] abbrev HDR_RESERVED_OFFSET : ℕ := 22

def writeLe16 (dst : Bytes) (off : ℕ) (value : UInt16) : Bytes :=
  (dst.set off (lo8 value)).set (off + 1) (hi8 value)

def readLe16 (src : Bytes) (off : ℕ) : UInt16 := word16 (src.getD off 0) (src.getD (off + 1) 0)

def serializeHeader (dst : Bytes) (header : Header) (crc : UInt16) : Bytes :=
  let dst := writeLe16 dst HDR_MAGIC_OFFSET header.magic
  let dst := dst.set HDR_VERSION_OFFSET header.version
  let dst := dst.set HDR_HEADER_LEN_OFFSET header.headerLen
  let dst := writeLe16 dst HDR_TOTAL_LEN_OFFSET header.totalLen
  let dst := writeLe16 dst HDR_SEQ_OFFSET header.seq
  let dst := writeLe16 dst HDR_REF_SEQ_OFFSET header.refSeq
  let dst := dst.set HDR_CH_TYPE_OFFSET header.chType
  let dst := dst.set HDR_CH_ID_OFFSET header.chId
  let dst := dst.set HDR_MSG_TYPE_OFFSET header.msgType
  let dst := dst.set HDR_OPCODE_OFFSET header.opcode
  let dst := writeLe16 dst HDR_FLAGS_OFFSET header.flags
  let dst := writeLe16 dst HDR_STATUS_OFFSET header.status
  let dst := writeLe16 dst HDR_PAYLOAD_LEN_OFFSET header.payloadLen
  let dst := writeLe16 dst HDR_CRC16_OFFSET crc
  writeLe16 dst HDR_RESERVED_OFFSET header.reserved

def deserializeHeader (src : Bytes) : Header where
  magic := readLe16 src HDR_MAGIC_OFFSET
  version := src.getD HDR_VERSION_OFFSET 0
  headerLen := src.getD HDR_HEADER_LEN_OFFSET 0
  totalLen := readLe16 src HDR_TOTAL_LEN_OFFSET
  seq := readLe16 src HDR_SEQ_OFFSET
  refSeq := readLe16 src HDR_REF_SEQ_OFFSET
  chType := src.getD HDR_CH_TYPE_OFFSET 0
  chId := src.getD HDR_CH_ID_OFFSET 0
  msgType := src.getD HDR_MSG_TYPE_OFFSET 0
  opcode := src.getD HDR_OPCODE_OFFSET 0
  flags := readLe16 src HDR_FLAGS_OFFSET
  status := readLe16 src HDR_STATUS_OFFSET
  payloadLen := readLe16 src HDR_PAYLOAD_LEN_OFFSET
  headerCrc16 := readLe16 src HDR_CRC16_OFFSET
  reserved := readLe16 src HDR_RESERVED_OFFSET

def checkHeaderShape (header : Header) : Result :=
  if header.magic ≠ MAGIC then .errProto
  else if header.version ≠ VERSION then .errProto
  else if header.headerLen.toNat ≠ HEADER_LEN then .errProto
  -- the sum is cast to 16 bits before it is compared
  else if header.totalLen.toNat ≠ (header.headerLen.toNat + header.payloadLen.toNat) % 2 ^ 16 then .errProto
  else if header.totalLen.toNat > MAX_FRAME_LEN then .errOverflow
  else .ok

/-! ### The CRC -/

/-- One round of the inner loop of `ch32mux_crc16`. -/
def crc16Bit (crc : UInt16) : UInt16 :=
  if crc &&& 0x8000 ≠ 0 then (crc <<< 1) ^^^ 0x1021 else crc <<< 1

/-- One round of the outer loop: a byte goes in, high bit first. -/
def crc16Byte (crc : UInt16) (byte : UInt8) : UInt16 :=
  crc16Bit^[8] (crc ^^^ (byte.toUInt16 <<< 8))

/-- `ch32mux_crc16` of a buffer that is there. -/
def crc16 (data : Bytes) (len : ℕ) : UInt16 := (data.take len).foldl crc16Byte 0xFFFF

/-! ### Headers in and out -/

/-- `ch32mux_encode_header`: the result, `dst` and `*header`. -/
def encodeHeader (dst : Bytes) (dstLen : ℕ) (header : Header) : Result × Bytes × Header :=
  if dstLen < HEADER_LEN then (.errOverflow, dst, header)
  else if header.payloadLen.toNat > MAX_FRAME_LEN - HEADER_LEN then (.errOverflow, dst, header)
  else
    let header := { header with
      magic := MAGIC
      version := VERSION
      headerLen := UInt8.ofNat HEADER_LEN
      totalLen := UInt16.ofNat (HEADER_LEN + header.payloadLen.toNat)
      headerCrc16 := 0 }
    let headerBytes := serializeHeader (List.replicate HEADER_LEN 0) header 0
    let header := { header with headerCrc16 := crc16 headerBytes HEADER_LEN }
    (.ok, serializeHeader dst header header.headerCrc16, header)

/-- `ch32mux_decode_header`: the header it stores, or the error it returns
with nothing stored. -/
def decodeHeader (src : Bytes) (srcLen : ℕ) : Except Result Header :=
  if srcLen < HEADER_LEN then .error .errProto
  else
    let header := deserializeHeader src
    match checkHeaderShape header with
    | .ok =>
      let headerBytes := ((src.take HEADER_LEN).set HDR_CRC16_OFFSET 0).set (HDR_CRC16_OFFSET + 1) 0
      if crc16 headerBytes HEADER_LEN ≠ header.headerCrc16 then .error .errProto
      else .ok header
    | ret => .error ret

/-- What `ch32mux_build_frame` leaves: its result, `dst`, `*frame_len` and
`*header`. -/
structure Built where
  ret : Result
  dst : Bytes
  frameLen : ℕ
  header : Header
  deriving DecidableEq, Repr

/-- `ch32mux_build_frame`. -/
def buildFrame (dst : Bytes) (dstLen frameLen : ℕ) (header : Header) (payload : Option Bytes)
    (payloadLen : ℕ) : Built :=
  if payload.isNone ∧ payloadLen ≠ 0 then ⟨.errArg, dst, frameLen, header⟩
  else if payloadLen > MAX_FRAME_LEN - HEADER_LEN then ⟨.errOverflow, dst, frameLen, header⟩
  else if dstLen < HEADER_LEN + payloadLen then ⟨.errOverflow, dst, frameLen, header⟩
  else
    let header := { header with payloadLen := UInt16.ofNat payloadLen }
    match encodeHeader dst dstLen header with
    | (.ok, dst, header) =>
      let dst := if payloadLen ≠ 0 then writeAt dst HEADER_LEN ((payload.getD []).take payloadLen) else dst
      ⟨.ok, dst, HEADER_LEN + payloadLen, header⟩
    | (ret, dst, header) => ⟨ret, dst, frameLen, header⟩

/-! ### The interrupt hint -/

/-- `ch32mux_irq_hint_t`. -/
structure IrqHint where
  version : UInt8
  urgentFlags : UInt8
  pendingBitmap : UInt16
  droppedBitmap : UInt16
  reserved : UInt16
  deriving DecidableEq, Repr

/-- `ch32mux_parse_irq_hint`. -/
def parseIrqHint (src : Bytes) (srcLen : ℕ) : Except Result IrqHint :=
  if srcLen < EP_HINT_SIZE then .error .errProto
  else if src.getD 0 0 ≠ IRQ_HINT_VERSION then .error .errProto
  else .ok ⟨src.getD 0 0, src.getD 1 0, readLe16 src 2, readLe16 src 4, readLe16 src 6⟩

end UsbMux
