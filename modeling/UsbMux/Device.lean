/-
# Frames over USB

`device.c`: opening and closing the device, writing a frame to EP3 OUT in as
many transfers as it takes, reading one from EP2 IN packet by packet, and
the sequence counter. The reader does not know the length of the frame when
it starts: it reads until it has a header, takes the frame's length from it
and reads on (`readLoop`).

`size_t` values are numbers below 2^64; where the reader narrows one to an
`int` the model does (`asInt`).

Key definitions: `Device`, `muxOpen`, `muxClose`, `writeFrame`, `readFrame`,
`readHint`, `nextSeq`.
-/
import UsbMux.Libusb
import Mathlib.Data.Int.Notation

namespace UsbMux

open Buffer

/-- `struct ch32mux_device`; a libusb context or handle is a number. -/
structure Device where
  ctx : Option ℕ
  handle : Option ℕ
  interfaceNumber : ℤ
  claimed : Bool
  detachedKernelDriver : Bool
  timeoutMs : ℕ
  nextSeq : UInt16
  deriving DecidableEq, Repr

def mapLibusbError : LibusbError → Result
  | .timeout => .errTimeout
  | .noDevice => .errNotFound
  | _ => .errIo

theorem mapLibusbError_ne_ok (e : LibusbError) : mapLibusbError e ≠ .ok := by
  cases e <;> simp [mapLibusbError]

theorem mapLibusbError_ne_errOverflow (e : LibusbError) : mapLibusbError e ≠ .errOverflow := by
  cases e <;> simp [mapLibusbError]

/-! ### Opening and closing -/

/-- `ch32mux_open_options_t`. -/
structure OpenOptions where
  vid : UInt16
  pid : UInt16
  interfaceNumber : ℤ
  timeoutMs : ℕ
  detachKernelDriver : Bool
  deriving DecidableEq, Repr

/-- `ch32mux_default_open_options`. -/
def defaultOpenOptions : OpenOptions := ⟨0x1A86, 0x2080, 0, 1000, true⟩

/-- How the calls of one `ch32mux_open` turn out. -/
structure OpenHost where
  calloc : Bool
  init : LibusbError
  /-- The context `libusb_init` stores. -/
  ctx : ℕ
  /-- The handle opened, if there is such a device. -/
  handle : Option ℕ
  kernelDriverActive : ℤ
  detach : LibusbError
  claim : LibusbError

/-- The calls that acquire and release. -/
inductive LibusbCall
  | init (ctx : ℕ)
  | openDevice (ctx : ℕ) (vid pid : UInt16)
  | kernelDriverActive (handle : ℕ) (interface : ℤ)
  | detachKernelDriver (handle : ℕ) (interface : ℤ)
  | claimInterface (handle : ℕ) (interface : ℤ)
  | releaseInterface (handle : ℕ) (interface : ℤ)
  | attachKernelDriver (handle : ℕ) (interface : ℤ)
  | close (handle : ℕ)
  | exit (ctx : ℕ)
  deriving DecidableEq, Repr

/-- `ch32mux_close` of a device that is there: the calls it makes. -/
def muxClose (device : Device) : List LibusbCall :=
  (match device.handle with
    | some h =>
      (if device.claimed then [.releaseInterface h device.interfaceNumber] else []) ++
      (if device.detachedKernelDriver then [.attachKernelDriver h device.interfaceNumber] else []) ++
      [.close h]
    | none => []) ++
  (match device.ctx with
    | some c => [.exit c]
    | none => [])

/-- `ch32mux_open`: its result, `*device_out` and the calls it makes. -/
def muxOpen (host : OpenHost) (options : Option OpenOptions) : Result × Option Device × List LibusbCall :=
  let options := options.getD defaultOpenOptions
  if !host.calloc then (.errNoMem, none, [])
  else if host.init ≠ .success then (mapLibusbError host.init, none, [.init host.ctx])
  else
    let device : Device := ⟨some host.ctx, none, 0, false, false, 0, 0⟩
    let calls := [.init host.ctx, .openDevice host.ctx options.vid options.pid]
    match host.handle with
    | none => (.errNotFound, none, calls ++ muxClose device)
    | some h =>
      let device := { device with
        handle := some h
        interfaceNumber := options.interfaceNumber
        timeoutMs := options.timeoutMs
        nextSeq := 1 }
      let active := options.detachKernelDriver && host.kernelDriverActive == 1
      let calls := calls ++
        (if options.detachKernelDriver then [.kernelDriverActive h device.interfaceNumber] else []) ++
        (if active then [.detachKernelDriver h device.interfaceNumber] else [])
      if active && host.detach ≠ .success then
        (mapLibusbError host.detach, none, calls ++ muxClose device)
      else
        let device := { device with detachedKernelDriver := active }
        let calls := calls ++ [.claimInterface h device.interfaceNumber]
        if host.claim ≠ .success then (mapLibusbError host.claim, none, calls ++ muxClose device)
        else (.ok, some { device with claimed := true }, calls)

/-- The device that is handed out, if one is: claimed, with its counter at 1. -/
theorem muxOpen_device (host : OpenHost) (options : Option OpenOptions) :
    let o := options.getD defaultOpenOptions
    (muxOpen host options).2.1 = none ∨ ∃ h, host.handle = some h ∧ (muxOpen host options).2.1 =
      some ⟨some host.ctx, some h, o.interfaceNumber, true,
        o.detachKernelDriver && host.kernelDriverActive == 1, o.timeoutMs, 1⟩ := by
  intro o
  unfold muxOpen
  rcases host.handle with _ | h
  · dsimp only
    split_ifs <;> exact .inl rfl
  · dsimp only
    split_ifs <;> first | exact .inl rfl | exact .inr ⟨h, rfl, rfl⟩

/-- The device a default open hands out when every call succeeds. -/
def freshDevice : Device := ⟨some 0, some 0, 0, true, false, 1000, 1⟩

example : muxOpen ⟨true, .success, 0, some 0, 0, .success, .success⟩ none =
    (.ok, some freshDevice, [.init 0, .openDevice 0 0x1A86 0x2080, .kernelDriverActive 0 0,
      .claimInterface 0 0]) := rfl

/-! ### Writing a frame -/

variable {σ : Type} (host : Host σ)

/-- The loop of `ch32mux_write_frame`, with `offset` bytes accepted. -/
def writeLoop (dev : Device) (frame : Bytes) (frameLen offset : ℕ) (s : σ) : Result × σ :=
  if offset < frameLen then
    let chunk := (frame.drop offset).take (frameLen - offset)
    match host.bulkOut dev.timeoutMs chunk s with
    | (x, s) =>
      if x.ret ≠ .success then (mapLibusbError x.ret, s)
      else if x.transferred = 0 then (.errIo, s)
      else writeLoop dev frame frameLen (offset + x.transferred) s
  else (.ok, s)
termination_by frameLen - offset

/-- `ch32mux_write_frame`. -/
def writeFrame (dev : Device) (frame : Bytes) (frameLen : ℕ) (s : σ) : Result × σ :=
  if frameLen = 0 ∨ frameLen > MAX_FRAME_LEN then (.errOverflow, s)
  else writeLoop host dev frame frameLen 0 s

/-! ### Reading a frame -/

/-- `(int)n` of an unsigned value. -/
def asInt (n : ℕ) : ℤ := (n : ℤ).bmod (2 ^ 32)

/-- `a - b` in `size_t`. -/
def sizeSub (a b : ℕ) : ℕ := (a + 2 ^ 64 - b) % 2 ^ 64

/-- The reader asks for one packet at most. -/
def clampToPacket (capacity : ℤ) : ℤ := if capacity > EP_PACKET_SIZE then EP_PACKET_SIZE else capacity

/-- What `ch32mux_read_frame` leaves: its result, the caller's buffer and
`*frame_len`, and the host. -/
structure FrameRead (σ : Type) where
  ret : Result
  frame : Bytes
  frameLen : ℕ
  state : σ

/-- The loop of `ch32mux_read_frame`: `offset` bytes are in `frame`, and it
wants `targetLen`, 24 until it has decoded a header. -/
def readLoop (dev : Device) (frameCapacity offset targetLen : ℕ) (frame : Bytes) (s : σ) : FrameRead σ :=
  if offset < targetLen then
    let capacity := asInt (sizeSub frameCapacity offset)
    if capacity ≤ 0 then ⟨.errOverflow, frame, 0, s⟩
    else
      match host.bulkIn dev.timeoutMs (clampToPacket capacity).toNat s with
      | (x, s) =>
        let frame := writeAt frame offset x.data
        if x.ret ≠ .success then ⟨mapLibusbError x.ret, frame, 0, s⟩
        else if x.data.length = 0 then ⟨.errIo, frame, 0, s⟩
        else
          let offset := offset + x.data.length
          if targetLen = HEADER_LEN ∧ offset ≥ HEADER_LEN then
            match decodeHeader frame offset with
            | .error ret => ⟨ret, frame, 0, s⟩
            | .ok header =>
              if header.totalLen.toNat > frameCapacity then ⟨.errOverflow, frame, 0, s⟩
              else readLoop dev frameCapacity offset header.totalLen.toNat frame s
          else readLoop dev frameCapacity offset targetLen frame s
  else ⟨.ok, frame, targetLen, s⟩
-- every round takes a byte, and no target is set above the capacity
termination_by max targetLen frameCapacity - offset

/-- `ch32mux_read_frame`. -/
def readFrame (dev : Device) (frame : Bytes) (frameCapacity frameLen : ℕ) (s : σ) : FrameRead σ :=
  if frameCapacity < HEADER_LEN then ⟨.errOverflow, frame, frameLen, s⟩
  else readLoop host dev frameCapacity 0 HEADER_LEN frame s

/-! ### The hint and the sequence counter -/

/-- `ch32mux_read_hint`: its result, `*hint` and the host. -/
def readHint (dev : Device) (hint : IrqHint) (s : σ) : Result × IrqHint × σ :=
  let raw := host.stack s EP_HINT_SIZE
  match host.interruptIn dev.timeoutMs EP_HINT_SIZE s with
  | (x, s) =>
    let raw := writeAt raw 0 x.data
    if x.ret ≠ .success then (mapLibusbError x.ret, hint, s)
    else if x.data.length ≠ EP_HINT_SIZE then (.errProto, hint, s)
    else
      match parseIrqHint raw EP_HINT_SIZE with
      | .error ret => (ret, hint, s)
      | .ok parsed => (.ok, parsed, s)

/-- `ch32mux_next_seq`: the number drawn and the device. -/
def nextSeq (dev : Device) : UInt16 × Device :=
  let next := dev.nextSeq + 1
  (dev.nextSeq, { dev with nextSeq := if next = 0 then 1 else next })

end UsbMux
