/-
# The driver over frames

What the calls do if one forgets how frames travel: a call that writes hands
the device one frame, a call that waits takes the first frame pending or
times out (`Call.exec`). The driver over a link does just that, whatever the
wire does with the bytes (`link_refines_channel`): each call, and each frame
the device sends of its own accord between two calls, takes a link that shows
a channel to one that shows the next (`Link.Shows`).

Callers pass buffers that are as long as they say (`Call.Proper`).

Key definitions: `Channel`, `Call.exec`, `Link.Shows`, `Action`.
Key theorems: `Link.Shows.receive`, `Link.Shows.transact`,
`link_refines_channel`.
-/
import UsbMux.Link
import UsbMux.UartData
import UsbMux.Lib.Machine

namespace UsbMux

variable {δ α : Type}

/-! ### Channels -/

/-- The frames pending for the host, and the device. -/
structure Channel (δ : Type) where
  pending : List Frame
  device : δ

/-- The device gets a frame. -/
def Channel.deliver (react : React δ) (h : Header) (bytes : Bytes) (s : Channel δ) : Channel δ :=
  let (fs, d) := react h bytes s.device
  ⟨s.pending ++ fs, d⟩

/-- The host takes the first frame, or times out. -/
def Channel.take (accept : Header → Bytes → Out → Result × Out) (out : Out) (s : Channel δ) :
    Result × Out × Channel δ :=
  match s.pending with
  | [] => (.errTimeout, out, s)
  | f :: fs =>
    let (ret, out) := accept f.header f.bytes out
    (ret, out, { s with pending := fs })

/-- Why a payload does not go into a frame. -/
def refusal (payload : Option Bytes) (payloadLen : ℕ) : Option Result :=
  if payload.isNone ∧ payloadLen ≠ 0 then some .errArg
  else if payloadLen > MAX_FRAME_LEN - HEADER_LEN then some .errOverflow
  else none

/-- The bytes of the frame with header `h` around the payload. -/
def framed (h : Header) (payload : Option Bytes) (payloadLen : ℕ) : Bytes :=
  frameBytes h ((payload.getD []).take payloadLen)

def Channel.transact (react : React δ) (dev : Device) (chType chId msgType opcode : UInt8) (payload : Option Bytes)
    (payloadLen : ℕ) (out : Out) (rspCapacity : ℕ) (s : Channel δ) : Reply (Channel δ) Out :=
  match refusal payload payloadLen with
  | some ret => ⟨ret, out, (nextSeq dev).2, s⟩
  | none =>
    let h := request dev.nextSeq chType chId msgType opcode payloadLen
    let (ret, out, s) := (s.deliver react h (framed h payload payloadLen)).take
      (acceptResponse dev.nextSeq chType chId opcode rspCapacity) out
    ⟨ret, out, (nextSeq dev).2, s⟩

def Channel.uartWrite (react : React δ) (dev : Device) (port : UInt8) (data : Option Bytes) (len : ℕ)
    (s : Channel δ) : Result × Device × Channel δ :=
  if data.isNone ∧ len ≠ 0 then (.errArg, dev, s)
  else
    match refusal data len with
    | some ret => (ret, (nextSeq dev).2, s)
    | none =>
      let h := (dataHeader port dev.nextSeq).forLen len
      (.ok, (nextSeq dev).2, s.deliver react h (framed h data len))

/-- What a call does over a channel. -/
def Call.exec (react : React δ) (dev : Device) (s : Channel δ) : Call → Reply (Channel δ) Out
  | transact chType chId msgType opcode payload payloadLen out rspCapacity =>
    s.transact react dev chType chId msgType opcode payload payloadLen out rspCapacity
  | bleTransact opcode payload payloadLen rspPayload rspCapacity rspLen =>
    s.transact react dev ChannelType.bleMgmt.code 0 MsgType.cmd.code opcode payload payloadLen
      ⟨none, rspPayload, rspLen⟩ rspCapacity
  | uartWrite port data len =>
    let (ret, dev, s) := s.uartWrite react dev port data len
    ⟨ret, ⟨none, none, none⟩, dev, s⟩
  | uartRead port data capacity len =>
    if data.isNone ∨ len.isNone then ⟨.errArg, ⟨none, data, len⟩, dev, s⟩
    else
      let (ret, out, s) := s.take (acceptData port capacity) ⟨none, data, len⟩
      ⟨ret, out, dev, s⟩
  | bleReadEvent out payloadCapacity =>
    if out.len.isNone then ⟨.errArg, out, dev, s⟩
    else
      let (ret, out, s) := s.take (acceptEvent payloadCapacity) out
      ⟨ret, out, dev, s⟩
  | nextSeq => ⟨.ok, ⟨none, none, none⟩, (UsbMux.nextSeq dev).2, s⟩

/-- The payload a caller passes is as long as it says. -/
def Call.Proper : Call → Prop
  | transact _ _ _ _ payload payloadLen _ _ => ∀ p ∈ payload, payloadLen ≤ p.length
  | bleTransact _ payload payloadLen _ _ _ => ∀ p ∈ payload, payloadLen ≤ p.length
  | uartWrite _ data len => ∀ p ∈ data, len ≤ p.length
  | _ => True

/-! ### Payloads -/

theorem refusal_of_fits {payload : Option Bytes} {payloadLen : ℕ} (h : Fits 512 payload payloadLen) :
    refusal payload payloadLen = none := by
  obtain ⟨harg, hlen, -⟩ := h
  unfold refusal
  rw [if_neg harg, if_neg (by simp only [MAX_FRAME_LEN, HEADER_LEN]; omega)]

theorem refusal_of_not_fits {payload : Option Bytes} {payloadLen : ℕ} (h : ¬Fits 512 payload payloadLen)
    (dst : Bytes) (frameLen : ℕ) (header : Header) :
    refusal payload payloadLen = some (buildFrame dst 512 frameLen header payload payloadLen).ret := by
  unfold refusal buildFrame
  by_cases harg : payload.isNone ∧ payloadLen ≠ 0
  · rw [if_pos harg, if_pos harg]
  · have hbig : payloadLen > MAX_FRAME_LEN - HEADER_LEN := by
      by_contra hle
      simp only [MAX_FRAME_LEN, HEADER_LEN] at hle
      exact h ⟨harg, by omega, by omega⟩
    rw [if_neg harg, if_neg harg, if_pos hbig, if_pos hbig]

theorem length_take_payload {payload : Option Bytes} {payloadLen : ℕ} (hfits : Fits 512 payload payloadLen)
    (hp : ∀ p ∈ payload, payloadLen ≤ p.length) : ((payload.getD []).take payloadLen).length = payloadLen := by
  rw [List.length_take]
  cases payload with
  | none =>
    have hzero : payloadLen = 0 := not_not.mp fun hne => hfits.1 ⟨rfl, hne⟩
    simp [hzero]
  | some p => exact Nat.min_eq_left (hp p rfl)

/-- The frame a call writes. -/
theorem exists_framed {payload : Option Bytes} {payloadLen : ℕ} (hfits : Fits 512 payload payloadLen)
    (hp : ∀ p ∈ payload, payloadLen ≤ p.length) (h : Header) {dst : Bytes} (hd : 512 ≤ dst.length) :
    let b := buildFrame dst 512 0 h payload payloadLen
    ∃ f : Frame, f.header = h.forLen payloadLen ∧ f.bytes = framed (h.forLen payloadLen) payload payloadLen ∧
      b.dst.take b.frameLen = f.bytes := by
  intro b
  have hlen := length_take_payload hfits hp
  have hheader : h.forPayload ((payload.getD []).take payloadLen) = h.forLen payloadLen := congrArg h.forLen hlen
  refine ⟨Frame.build h ((payload.getD []).take payloadLen) (hlen.trans_le hfits.2.1), hheader, ?_, ?_⟩
  · exact congrArg (frameBytes · _) hheader
  · rw [show b = _ from buildFrame_eq 0 h hfits hd]
    refine (List.take_left' ?_).trans (congrArg (frameBytes · _) hheader.symm)
    rw [length_frameBytes, hlen]

/-! ### What a link shows -/

/-- The link is at rest and shows the channel: nothing of a frame is left
over, and what is queued are the channel's frames, cut somehow. -/
structure Link.Shows (s : Link δ) (t : Channel δ) : Prop where
  got : s.got = []
  pending : ∃ cuts : List CutFrame, s.inq = cuts.flatMap CutFrame.events ∧ cuts.map CutFrame.toFrame = t.pending
  device : s.device = t.device

/-- Both replies are the same but for what shows. -/
structure Reply.Shows (r : Reply (Link δ) α) (r' : Reply (Channel δ) α) : Prop where
  ret : r.ret = r'.ret
  out : r.out = r'.out
  dev : r.dev = r'.dev
  state : r.state.Shows r'.state

theorem Link.Shows.send {s : Link δ} {t : Channel δ} (h : s.Shows t) (W : Transport) (fs : List Frame) :
    (s.send W fs).Shows { t with pending := t.pending ++ fs } where
  got := h.got
  pending := by
    obtain ⟨cuts, hinq, hcuts⟩ := h.pending
    refine ⟨cuts ++ W.pack s.count fs, ?_, ?_⟩
    · rw [List.flatMap_append, ← hinq]
      rfl
    · rw [List.map_append, hcuts, W.pack_toFrame]
  device := h.device

variable (stack : Stack) (W : Transport) (react : React δ)

/-- A frame that the device has got. -/
theorem Link.Shows.deliver {s : Link δ} {t : Channel δ} (h : s.Shows t) (f : Frame) (k : ℕ) :
    let r := react f.header f.bytes s.device
    (Link.send W r.1 ⟨[], s.inq, k, r.2⟩).Shows (t.deliver react f.header f.bytes) := by
  intro r
  have hrest : Link.Shows ⟨[], s.inq, k, r.2⟩ ⟨t.pending, r.2⟩ := ⟨rfl, h.pending, rfl⟩
  have hdeliver : t.deliver react f.header f.bytes = ⟨t.pending ++ r.1, r.2⟩ := by
    unfold Channel.deliver
    rw [← h.device]
  rw [hdeliver]
  exact hrest.send W r.1

/-- The verdict is on the frame, not on what lies behind it in the buffer. -/
def OnFrame (accept : Header → Bytes → Out → Result × Out) : Prop :=
  ∀ (f : Frame) (more : Bytes) (out : Out), accept f.header (f.bytes ++ more) out = accept f.header f.bytes out

theorem acceptResponse_onFrame (seq : UInt16) (chType chId opcode : UInt8) (capacity : ℕ) :
    OnFrame (acceptResponse seq chType chId opcode capacity) := by
  intro f more out
  simp only [acceptResponse, Out.store_frame]

theorem acceptData_onFrame (port : UInt8) (capacity : ℕ) : OnFrame (acceptData port capacity) := by
  intro f more out
  simp only [acceptData, Out.store_frame]

theorem acceptEvent_onFrame (capacity : ℕ) : OnFrame (acceptEvent capacity) := by
  intro f more out
  simp only [acceptEvent, Out.store_frame]

/-- **Receiving takes the first frame that shows.** -/
theorem Link.Shows.receive {s : Link δ} {t : Channel δ} (h : s.Shows t) {accept : Header → Bytes → Out → Result × Out}
    (ha : OnFrame accept) (dev : Device) (out : Out) :
    let r := UsbMux.receive (Link.host stack W react) dev accept out s
    let r' := t.take accept out
    r.1 = r'.1 ∧ r.2.1 = r'.2.1 ∧ r.2.2.Shows r'.2.2 := by
  intro r r'
  obtain ⟨cuts, hinq, hcuts⟩ := h.pending
  obtain ⟨pending, d⟩ := t
  rcases cuts with _ | ⟨f, cuts⟩
  · -- nothing is queued
    obtain rfl : [] = pending := hcuts
    have hr : r = (.errTimeout, out, s) :=
      receive_of_timeout accept out (Link.bulkIn_empty stack W react hinq dev.timeoutMs)
    rw [hr]
    exact ⟨rfl, rfl, h⟩
  · obtain rfl : f.toFrame :: cuts.map CutFrame.toFrame = pending := hcuts
    have hd := Link.delivers stack W react dev.timeoutMs s (cuts.flatMap CutFrame.events) f.events
    rw [← List.flatMap_cons, ← hinq] at hd
    have hr : r = ((accept f.header f.bytes out).1, (accept f.header f.bytes out).2,
        { s with inq := cuts.flatMap CutFrame.events }) := by
      rw [show r = _ from receive_of_delivers accept out f hd, ha]
    rw [hr]
    exact ⟨rfl, rfl, h.got, ⟨cuts, rfl, rfl⟩, h.device⟩

/-! ### Calls -/

/-- **A `transact` over a link.** -/
theorem Link.Shows.transact {s : Link δ} {t : Channel δ} (h : s.Shows t) (dev : Device)
    (chType chId msgType opcode : UInt8) {payload : Option Bytes} {payloadLen : ℕ}
    (hp : ∀ p ∈ payload, payloadLen ≤ p.length) (out : Out) (rspCapacity : ℕ) :
    (UsbMux.transact (Link.host stack W react) dev chType chId msgType opcode payload payloadLen out
        rspCapacity s).Shows
      (t.transact react dev chType chId msgType opcode payload payloadLen out rspCapacity) := by
  set req : Header := { Header.zero with
    seq := dev.nextSeq, chType := chType, chId := chId, msgType := msgType, opcode := opcode } with hreq
  have hstack : 512 ≤ ((Link.host stack W react).stack s 512).length := (stack.length_bytes 512).ge
  unfold Channel.transact
  by_cases hfits : Fits 512 payload payloadLen
  · rw [refusal_of_fits hfits]
    obtain ⟨f, hheader, hbytes, hdst⟩ := exists_framed hfits hp req hstack
    have hne : f.bytes ≠ [] := List.length_pos_iff.mp (by have := f.le_length; omega)
    obtain ⟨k, hacc⟩ := Link.accepts stack W react dev.timeoutMs (s := s) (by rw [h.got, List.nil_append]) hne
    rw [← hdst] at hacc
    have hgo : UsbMux.transact (Link.host stack W react) dev chType chId msgType opcode payload payloadLen out
        rspCapacity s = _ := transact_of_accepts hfits hacc out rspCapacity
    rw [hdst] at hgo
    obtain ⟨hret, hout, hstate⟩ := (h.deliver W react f k).receive stack W react
      (acceptResponse_onFrame dev.nextSeq chType chId opcode rspCapacity) (nextSeq dev).2 out
    rw [hheader, hbytes] at hret hout hstate
    rw [hgo]
    dsimp only
    rw [hheader, hbytes]
    exact ⟨hret, hout, rfl, hstate⟩
  · rw [refusal_of_not_fits hfits (stack.bytes 512) 0 req]
    have hb : (buildFrame ((Link.host stack W react).stack s 512) 512 0 req payload payloadLen).ret ≠ .ok :=
      fun hok => hfits ((buildFrame_ok hstack).mp hok)
    obtain ⟨hdev, ⟨-, hret, hout, hs⟩ | ⟨hok, -⟩ | ⟨hok, -⟩⟩ := transact_cases (Link.host stack W react) dev chType
      chId msgType opcode payload payloadLen out rspCapacity s
    · exact ⟨hret, hout, hdev, by rw [hs]; exact h⟩
    · exact absurd hok hb
    · exact absurd hok hb

/-- **A write over a link.** -/
theorem Link.Shows.uartWrite {s : Link δ} {t : Channel δ} (h : s.Shows t) (dev : Device) (port : UInt8)
    {data : Option Bytes} {len : ℕ} (hp : ∀ p ∈ data, len ≤ p.length) :
    let r := UsbMux.uartWrite (Link.host stack W react) dev port data len s
    let r' := t.uartWrite react dev port data len
    r.1 = r'.1 ∧ r.2.1 = r'.2.1 ∧ r.2.2.Shows r'.2.2 := by
  intro r r'
  have hstack : 512 ≤ ((Link.host stack W react).stack s 512).length := (stack.length_bytes 512).ge
  unfold r'
  unfold Channel.uartWrite
  rcases uartWrite_cases (Link.host stack W react) dev port data len s with ⟨harg, hr⟩ | ⟨harg, ⟨hb, hr⟩ | ⟨hb, hr⟩⟩
  · rw [if_pos harg, show r = _ from hr]
    exact ⟨rfl, rfl, h⟩
  · have hfits : ¬Fits 512 data len := fun hfits => hb ((buildFrame_ok hstack).mpr hfits)
    rw [if_neg harg, refusal_of_not_fits hfits (stack.bytes 512) 0 (dataHeader port dev.nextSeq), show r = _ from hr]
    exact ⟨rfl, rfl, h⟩
  · have hfits := (buildFrame_ok hstack).mp hb
    rw [if_neg harg, refusal_of_fits hfits, show r = _ from hr]
    obtain ⟨f, hheader, hbytes, hdst⟩ := exists_framed hfits hp (dataHeader port dev.nextSeq) hstack
    have hne : f.bytes ≠ [] := List.length_pos_iff.mp (by have := f.le_length; omega)
    obtain ⟨k, hacc⟩ := Link.accepts stack W react dev.timeoutMs (s := s) (by rw [h.got, List.nil_append]) hne
    have hstate := h.deliver W react f k
    obtain ⟨hfl, -⟩ := decodeHeader_built 0 (dataHeader port dev.nextSeq) hfits hstack
    have hbuilt := congrArg Built.frameLen (buildFrame_eq 0 (dataHeader port dev.nextSeq) hfits hstack)
    have hbound := hfits.2.1
    set b := buildFrame ((Link.host stack W react).stack s 512) 512 0 (dataHeader port dev.nextSeq) data len
    have hlen : b.frameLen = 24 + len := hbuilt
    have hdstlen : b.frameLen ≤ b.dst.length := by
      rw [← hfl]
      exact List.length_take_le' _ _
    have hw : writeFrame (Link.host stack W react) (nextSeq dev).2 b.dst b.frameLen s = (.ok, _) :=
      writeFrame_of_accepts (by omega) (by omega) hdstlen (by rw [hdst]; exact hacc)
    rw [hheader, hbytes] at hstate
    refine ⟨congrArg Prod.fst hw, rfl, ?_⟩
    show (writeFrame (Link.host stack W react) (nextSeq dev).2 b.dst b.frameLen s).2.Shows _
    rw [hw, hheader, hbytes]
    exact hstate

theorem Call.run_shows {s : Link δ} {t : Channel δ} (h : s.Shows t) (dev : Device) {c : Call} (hc : c.Proper) :
    (c.run (Link.host stack W react) dev s).Shows (c.exec react dev t) := by
  cases c with
  | transact chType chId msgType opcode payload payloadLen out cap =>
    exact h.transact stack W react dev chType chId msgType opcode hc out cap
  | bleTransact opcode payload payloadLen rspPayload cap rspLen =>
    exact h.transact stack W react dev ChannelType.bleMgmt.code 0 MsgType.cmd.code opcode hc
      ⟨none, rspPayload, rspLen⟩ cap
  | uartWrite port data len =>
    obtain ⟨hret, hdev, hstate⟩ := h.uartWrite stack W react dev port hc
    exact ⟨hret, rfl, hdev, hstate⟩
  | uartRead port data cap len =>
    unfold Call.run Call.exec
    dsimp only
    unfold UsbMux.uartRead
    by_cases harg : data.isNone ∨ len.isNone
    · rw [if_pos harg, if_pos harg]
      exact ⟨rfl, rfl, rfl, h⟩
    · rw [if_neg harg, if_neg harg]
      obtain ⟨hret, hout, hstate⟩ := h.receive stack W react (acceptData_onFrame port cap) dev ⟨none, data, len⟩
      exact ⟨hret, hout, rfl, hstate⟩
  | bleReadEvent out cap =>
    unfold Call.run Call.exec
    dsimp only
    unfold UsbMux.bleReadEvent
    by_cases harg : out.len.isNone
    · rw [if_pos harg, if_pos harg]
      exact ⟨rfl, rfl, rfl, h⟩
    · rw [if_neg harg, if_neg harg]
      obtain ⟨hret, hout, hstate⟩ := h.receive stack W react (acceptEvent_onFrame cap) dev out
      exact ⟨hret, hout, rfl, hstate⟩
  | nextSeq => exact ⟨rfl, rfl, rfl, h⟩

/-! ### Runs -/

/-- What happens next: the driver is called, or the device sends frames of
its own accord. -/
inductive Action
  | call (c : Call)
  | send (fs : List Frame)

def Action.Proper : Action → Prop
  | call c => c.Proper
  | send _ => True

/-- The driver over a link: what the call returns, and the driver's device
and the link after it. -/
def Link.step (stack : Stack) (W : Transport) (react : React δ) :
    Action → Device × Link δ → Option (Result × Out) × (Device × Link δ)
  | .call c, (dev, s) =>
    let r := c.run (Link.host stack W react) dev s
    (some (r.ret, r.out), r.dev, r.state)
  | .send fs, (dev, s) => (none, dev, s.send W fs)

/-- The driver over a channel. -/
def Channel.step (react : React δ) : Action → Device × Channel δ → Option (Result × Out) × (Device × Channel δ)
  | .call c, (dev, t) =>
    let r := c.exec react dev t
    (some (r.ret, r.out), r.dev, r.state)
  | .send fs, (dev, t) => (none, dev, { t with pending := t.pending ++ fs })

/-- The driver's devices are the same and the link shows the channel. -/
def ShowsState (p : Device × Link δ) (q : Device × Channel δ) : Prop := p.1 = q.1 ∧ p.2.Shows q.2

/-- **A step.** -/
theorem Link.step_refines :
    Machine.Refines Action.Proper ShowsState (Link.step stack W react) (Channel.step react) := by
  intro a ha p q hpq
  obtain ⟨dev, s⟩ := p
  obtain ⟨dev', t⟩ := q
  obtain ⟨rfl, h⟩ : dev = dev' ∧ s.Shows t := hpq
  cases a with
  | call c =>
    have hr := Call.run_shows stack W react h dev ha
    refine ⟨?_, hr.dev, hr.state⟩
    show some (_, _) = some (_, _)
    rw [hr.ret, hr.out]
  | send fs => exact ⟨rfl, rfl, h.send W fs⟩

/-- **The link does not matter.** Over every run of calls and of frames the
device sends of its own accord, the driver over a link returns what it
returns over the channel, and leaves a link that shows the channel left
there: however the wire takes the bytes and cuts the frames, whatever was on
the stack. -/
theorem link_refines_channel {s : Link δ} {t : Channel δ} (h : s.Shows t) (dev : Device) (actions : List Action)
    (hactions : ∀ a ∈ actions, a.Proper) :
    Machine.outputs (Link.step stack W react) actions (dev, s) = Machine.outputs (Channel.step react) actions (dev, t) ∧
      ShowsState (Machine.after (Link.step stack W react) actions (dev, s))
        (Machine.after (Channel.step react) actions (dev, t)) :=
  (Link.step_refines stack W react).run hactions ⟨rfl, h⟩

/-- An event comes in between two calls, byte by byte. -/
theorem link_refines_channel_event :
    let react : React Unit := fun _ _ d => ([], d)
    let actions : List Action := [.call (.uartWrite 1 (some [0x41]) 1), .send [eventFrame.toFrame],
      .call (.bleReadEvent ⟨none, none, some 0⟩ 0)]
    Machine.outputs (Link.step Stack.zero Transport.bytewise react) actions (freshDevice, ⟨[], [], 0, ()⟩) =
        Machine.outputs (Channel.step react) actions (freshDevice, ⟨[], ()⟩) ∧
      ShowsState (Machine.after (Link.step Stack.zero Transport.bytewise react) actions (freshDevice, ⟨[], [], 0, ()⟩))
        (Machine.after (Channel.step react) actions (freshDevice, ⟨[], ()⟩)) := by
  intro react actions
  have hactions : ∀ a ∈ actions, a.Proper := by
    intro a ha
    simp only [actions, List.mem_cons, List.not_mem_nil, or_false] at ha
    obtain rfl | rfl | rfl := ha
    · exact fun p hp => Option.mem_some.mp hp ▸ Nat.le_refl 1
    · trivial
    · trivial
  exact link_refines_channel Stack.zero Transport.bytewise react ⟨rfl, ⟨[], rfl, rfl⟩, rfl⟩ freshDevice actions hactions

end UsbMux
