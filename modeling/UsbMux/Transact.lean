/-
# A request and its answer

The part `uart.c` and `ble.c` share. Three functions of theirs end by reading
one frame, decoding its header a second time and deciding from the header
whether it is what they wait for: both copies of `transact`, and the readers
`ch32mux_uart_read` and `ch32mux_ble_read_event`. That end is `receive`, with
the decision as a parameter; `transact` draws a sequence number, builds the
request, writes it and receives with `acceptResponse`.

Key definitions: `Out`, `receive`, `acceptResponse`, `transact`, `query`.
-/
import UsbMux.Device

namespace UsbMux

open Buffer

variable {σ : Type} (host : Host σ)

/-- The objects a caller passes for a function to fill: a header, a buffer
and a length, each `none` where it passes a null pointer. -/
structure Out where
  header : Option Header
  payload : Option Bytes
  len : Option ℕ
  deriving DecidableEq, Repr

/-- The frame's payload, its length and its header go to the caller. A copy
of no bytes is no copy. -/
def Out.store (out : Out) (header : Header) (frame : Bytes) : Out where
  header := out.header.map fun _ => header
  payload := out.payload.map fun p => writeAt p 0 ((frame.drop HEADER_LEN).take header.payloadLen.toNat)
  len := out.len.map fun _ => header.payloadLen.toNat

/-- Read a frame into a buffer on the stack, decode it, and let `accept`
decide on its header. -/
def receive (dev : Device) (accept : Header → Bytes → Out → Result × Out) (out : Out) (s : σ) :
    Result × Out × σ :=
  let r := readFrame host dev (host.stack s MAX_FRAME_LEN) MAX_FRAME_LEN 0 s
  if r.ret ≠ .ok then (r.ret, out, r.state)
  else
    match decodeHeader r.frame r.frameLen with
    | .error ret => (ret, out, r.state)
    | .ok header =>
      let (ret, out) := accept header r.frame out
      (ret, out, r.state)

/-- What `transact` does with the header it has read. -/
def acceptResponse (seq : UInt16) (chType chId opcode : UInt8) (rspCapacity : ℕ) (rsp : Header)
    (frame : Bytes) (out : Out) : Result × Out :=
  if rsp.msgType ≠ MsgType.rsp.code ∨ rsp.refSeq ≠ seq ∨ rsp.chType ≠ chType ∨ rsp.chId ≠ chId ∨
      rsp.opcode ≠ opcode then (.errProto, out)
  else if rsp.status ≠ DEV_STATUS_OK then (.errDeviceStatus, out)
  else if rsp.payloadLen.toNat > rspCapacity then (.errOverflow, out)
  else if rsp.payloadLen ≠ 0 ∧ out.payload.isNone then (.errArg, out)
  else (.ok, out.store rsp frame)

/-- What a call leaves: its result, the caller's objects, the device and the
host. -/
@[ext]
structure Reply (σ α : Type) where
  ret : Result
  out : α
  dev : Device
  state : σ

/-- `transact`. -/
def transact (dev : Device) (chType chId msgType opcode : UInt8) (payload : Option Bytes)
    (payloadLen : ℕ) (out : Out) (rspCapacity : ℕ) (s : σ) : Reply σ Out :=
  let (seq, dev) := nextSeq dev
  let req := { Header.zero with seq := seq, chType := chType, chId := chId, msgType := msgType, opcode := opcode }
  let b := buildFrame (host.stack s MAX_FRAME_LEN) MAX_FRAME_LEN 0 req payload payloadLen
  if b.ret ≠ .ok then ⟨b.ret, out, dev, s⟩
  else
    match writeFrame host dev b.dst b.frameLen s with
    | (ret, s) =>
      if ret ≠ .ok then ⟨ret, out, dev, s⟩
      else
        match receive host dev (acceptResponse b.header.seq chType chId opcode rspCapacity) out s with
        | (ret, out, s) => ⟨ret, out, dev, s⟩

/-- A request whose answer is a record of `size` bytes: `call` runs the
request, `parse` reads the record. -/
def query {ρ : Type} (call : Out → ℕ → σ → Reply σ Out) (size : ℕ) (parse : Bytes → ρ) (dev : Device)
    (record : Option ρ) (s : σ) : Reply σ (Option ρ) :=
  if record.isNone then ⟨.errArg, record, dev, s⟩
  else
    match call ⟨none, some (host.stack s size), some 0⟩ size s with
    | ⟨ret, out, dev, s⟩ =>
      if ret ≠ .ok then ⟨ret, record, dev, s⟩
      else if out.len ≠ some size then ⟨.errProto, record, dev, s⟩
      else ⟨.ok, out.payload.map parse, dev, s⟩

end UsbMux
