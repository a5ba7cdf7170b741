/-
# Runs of calls

The calls of the driver that go over USB or draw a number, and runs of them:
each call starts from the device and the host the one before has left. A step
of a run keeps the transfers of its call, so what the call wrote and what it
read can be told from the step (`wrote`, `readRsp`).

Key definitions: `Call`, `Call.run`, `Answers`, `Step`, `run`.
Key theorems: `Call.run_dev`, `transact_wrote`, `Call.run_wrote`, `run_step`.
-/
import UsbMux.Delivered

namespace UsbMux

variable {σ : Type}

/-! ### Calls -/

/-- A call of the driver, with its arguments. -/
inductive Call
  | transact (chType chId msgType opcode : UInt8) (payload : Option Bytes) (payloadLen : ℕ) (out : Out)
      (rspCapacity : ℕ)
  | bleTransact (opcode : UInt8) (payload : Option Bytes) (payloadLen : ℕ) (rspPayload : Option Bytes)
      (rspCapacity : ℕ) (rspLen : Option ℕ)
  | uartWrite (port : UInt8) (data : Option Bytes) (len : ℕ)
  | uartRead (port : UInt8) (data : Option Bytes) (capacity : ℕ) (len : Option ℕ)
  | bleReadEvent (out : Out) (payloadCapacity : ℕ)
  | nextSeq
  deriving DecidableEq, Repr

/-- The caller's objects before the call. -/
def Call.out : Call → Out
  | transact _ _ _ _ _ _ out _ => out
  | bleTransact _ _ _ rspPayload _ rspLen => ⟨none, rspPayload, rspLen⟩
  | uartWrite _ _ _ => ⟨none, none, none⟩
  | uartRead _ data _ len => ⟨none, data, len⟩
  | bleReadEvent out _ => out
  | nextSeq => ⟨none, none, none⟩

def Call.run (host : Host σ) (dev : Device) (s : σ) : Call → Reply σ Out
  | transact chType chId msgType opcode payload payloadLen out rspCapacity =>
    UsbMux.transact host dev chType chId msgType opcode payload payloadLen out rspCapacity s
  | bleTransact opcode payload payloadLen rspPayload rspCapacity rspLen =>
    UsbMux.bleTransact host dev opcode payload payloadLen rspPayload rspCapacity rspLen s
  | uartWrite port data len =>
    let (ret, dev, s) := UsbMux.uartWrite host dev port data len s
    ⟨ret, ⟨none, none, none⟩, dev, s⟩
  | uartRead port data capacity len =>
    let (ret, out, s) := UsbMux.uartRead host dev port data capacity len s
    ⟨ret, out, dev, s⟩
  | bleReadEvent out payloadCapacity =>
    let (ret, out, s) := UsbMux.bleReadEvent host dev out payloadCapacity s
    ⟨ret, out, dev, s⟩
  | nextSeq => ⟨.ok, ⟨none, none, none⟩, (UsbMux.nextSeq dev).2, s⟩

/-- The call is a `transact`. -/
def Call.isTransact : Call → Bool
  | transact .. => true
  | bleTransact .. => true
  | _ => false

/-- The call draws a sequence number; none draws more than one. -/
def Call.draws : Call → Bool
  | transact .. => true
  | bleTransact .. => true
  | uartWrite _ data len => decide ¬(data.isNone ∧ len ≠ 0)
  | uartRead .. => false
  | bleReadEvent .. => false
  | nextSeq => true

/-- The ways through `uartWrite`: no data where there should be some, or the
frame is not built, or it is written. -/
theorem uartWrite_cases (host : Host σ) (dev : Device) (port : UInt8) (data : Option Bytes) (len : ℕ) (s : σ) :
    let r := uartWrite host dev port data len s
    let dev' := (nextSeq dev).2
    let b := buildFrame (host.stack s 512) 512 0 { Header.zero with
      seq := dev.nextSeq, chType := ChannelType.uartData.code, chId := port, msgType := MsgType.data.code,
      opcode := 0 } data len
    let w := writeFrame host dev' b.dst b.frameLen s
    (data.isNone ∧ len ≠ 0) ∧ r = (.errArg, dev, s) ∨
      ¬(data.isNone ∧ len ≠ 0) ∧
        (b.ret ≠ .ok ∧ r = (b.ret, dev', s) ∨ b.ret = .ok ∧ r = (w.1, dev', w.2)) := by
  intro r dev' b w
  have hr : r = if data.isNone ∧ len ≠ 0 then (.errArg, dev, s) else
      if b.ret ≠ .ok then (b.ret, dev', s) else (w.1, dev', w.2) := rfl
  by_cases harg : data.isNone ∧ len ≠ 0
  · exact .inl ⟨harg, by rw [hr, if_pos harg]⟩
  · rw [if_neg harg] at hr
    by_cases hb : b.ret = .ok
    · exact .inr ⟨harg, .inr ⟨hb, by rw [hr, if_neg (by simp [hb])]⟩⟩
    · exact .inr ⟨harg, .inl ⟨hb, by rw [hr, if_pos hb]⟩⟩

/-- The counter moves by one when the call draws, and nothing else of the
device changes. -/
theorem Call.run_dev (host : Host σ) (dev : Device) (s : σ) (c : Call) :
    (c.run host dev s).dev = if c.draws then (UsbMux.nextSeq dev).2 else dev := by
  cases c with
  | transact chType chId msgType opcode payload payloadLen out cap => exact (transact_cases ..).1
  | bleTransact opcode payload payloadLen rspPayload cap rspLen => exact (transact_cases ..).1
  | uartWrite port data len =>
    show (UsbMux.uartWrite host dev port data len s).2.1 = _
    rcases uartWrite_cases host dev port data len s with ⟨harg, hr⟩ | ⟨harg, ⟨-, hr⟩ | ⟨-, hr⟩⟩
    · rw [hr, if_neg (by simpa [Call.draws] using harg)]
    · have hdraws : (uartWrite port data len).draws = true := decide_eq_true harg
      rw [hr, if_pos hdraws]
    · have hdraws : (uartWrite port data len).draws = true := decide_eq_true harg
      rw [hr, if_pos hdraws]
  | uartRead port data cap len => rfl
  | bleReadEvent out cap => rfl
  | nextSeq => rfl

/-! ### What a call wrote and read -/

/-- The header of the frame a call wrote: it offers the frame whole before
anything else. -/
def wrote (evs : List Event) : Option Header :=
  match offered evs with
  | [] => none
  | chunk :: _ => (decodeHeader chunk chunk.length).toOption

/-- The header of the RSP frame a call read. -/
def readRsp (evs : List Event) : Option Header :=
  match decodeHeader (received evs) (received evs).length with
  | .error _ => none
  | .ok h => if h.msgType = MsgType.rsp.code then some h else none

/-- A frame that was built is written under its header. -/
theorem writeFrame_wrote (host : Host σ) (dev : Device) (s : σ) {h : Header} {payload : Option Bytes}
    {payloadLen : ℕ} (hb : (buildFrame (host.stack s 512) 512 0 h payload payloadLen).ret = .ok) :
    let b := buildFrame (host.stack s 512) 512 0 h payload payloadLen
    ∃ evs, Makes host dev.timeoutMs s evs (writeFrame host dev b.dst b.frameLen s).2 ∧ received evs = [] ∧
      ∀ more, wrote (evs ++ more) = some (h.forLen payloadLen) := by
  intro b
  have hstack : 512 ≤ (host.stack s 512).length := (host.length_stack s 512).ge
  have hfits := (buildFrame_ok hstack).mp hb
  have hlen : b.frameLen = 24 + payloadLen := by rw [show b = _ from buildFrame_eq 0 h hfits hstack]
  have hp := hfits.2.1
  obtain ⟨evs, hm, hrec, hfirst⟩ := writeFrame_spec host dev b.dst b.frameLen s
  obtain ⟨x, rest, rfl⟩ := hfirst (by omega) (by omega)
  refine ⟨_, hm, hrec, fun more => ?_⟩
  simp only [List.cons_append, wrote, offered]
  rw [(decodeHeader_built 0 h hfits hstack).2]
  rfl

/-- The RSP header `h` answers the request header `w`, with status OK. -/
structure Answers (h w : Header) : Prop where
  refSeq : h.refSeq = w.seq
  chType : h.chType = w.chType
  chId : h.chId = w.chId
  opcode : h.opcode = w.opcode
  status : h.status = DEV_STATUS_OK

theorem acceptResponse_ok {seq : UInt16} {chType chId opcode : UInt8} {cap : ℕ} {h : Header} {frame : Bytes}
    {out out' : Out} (ha : acceptResponse seq chType chId opcode cap h frame out = (.ok, out')) :
    h.msgType = MsgType.rsp.code ∧ h.refSeq = seq ∧ h.chType = chType ∧ h.chId = chId ∧ h.opcode = opcode ∧
      h.status = DEV_STATUS_OK := by
  unfold acceptResponse at ha
  split_ifs at ha with hmatch hstatus hcap hnull <;> cases ha
  simp only [not_or, ne_eq, not_not] at hmatch hstatus
  obtain ⟨h1, h2, h3, h4, h5⟩ := hmatch
  exact ⟨h1, h2, h3, h4, h5, hstatus⟩

/-- **What a `transact` has done when it returns OK**: it has written a frame
under the number it drew and read an RSP that answers it. Whatever it
returns, what it wrote carries that number. -/
theorem transact_wrote (host : Host σ) (dev : Device) (chType chId msgType opcode : UInt8)
    (payload : Option Bytes) (payloadLen : ℕ) (out : Out) (rspCapacity : ℕ) (s : σ) :
    let r := transact host dev chType chId msgType opcode payload payloadLen out rspCapacity s
    ∃ evs, Makes host dev.timeoutMs s evs r.state ∧ (∀ w, wrote evs = some w → w.seq = dev.nextSeq) ∧
      (r.ret = .ok → ∃ w h, wrote evs = some w ∧ readRsp evs = some h ∧ Answers h w) := by
  intro r
  have hcases := (transact_cases host dev chType chId msgType opcode payload payloadLen out rspCapacity s).2
  rcases hcases with ⟨hb, hret, -, hs⟩ | ⟨hb, hw, hret, -, hs⟩ | ⟨hb, -, hr⟩
  · exact ⟨[], hs.symm, fun w hw => (by cases hw), fun hok => absurd (hret.symm.trans hok) hb⟩
  · obtain ⟨evs, hm, -, hwrote⟩ := writeFrame_wrote host (nextSeq dev).2 s hb
    have hw' := hwrote []
    rw [List.append_nil] at hw'
    exact ⟨evs, hs ▸ hm, fun w h => (by rw [hw'] at h; cases h; rfl), fun hok => absurd (hret.symm.trans hok) hw⟩
  · obtain ⟨wevs, hwm, hwrec, hwrote⟩ := writeFrame_wrote host (nextSeq dev).2 s hb
    obtain ⟨evs, hm, -, hspec⟩ := receive_spec host (nextSeq dev).2
      (acceptResponse _ chType chId opcode rspCapacity) out _
    obtain ⟨hret, hr⟩ := Prod.mk.inj hr
    obtain ⟨hout, hs⟩ := Prod.mk.inj hr
    refine ⟨wevs ++ evs, hs ▸ hwm.append hm, fun w h => (by rw [hwrote evs] at h; cases h; rfl), fun hok => ?_⟩
    obtain ⟨h, frame, hdec, -, -, -, -, hacc⟩ := hspec (hret.symm.trans hok)
    obtain ⟨hmsg, href, hct, hci, hop, hst⟩ := acceptResponse_ok hacc
    have hb' := buildFrame_eq 0 { Header.zero with
      seq := dev.nextSeq, chType := chType, chId := chId, msgType := msgType, opcode := opcode }
      ((buildFrame_ok (host.length_stack s 512).ge).mp hb) (host.length_stack s 512).ge
    refine ⟨_, h, hwrote evs, ?_, ?_⟩
    · simp only [readRsp, received_append, hwrec, List.nil_append, hdec, if_pos hmsg]
    · rw [hb'] at href
      exact ⟨href, hct, hci, hop, hst⟩

theorem wrote_of_offered {evs : List Event} (h : offered evs = []) : wrote evs = none := by
  unfold wrote
  rw [h]

/-- **What a call does on the wire.** What it writes carries the number it
draws, and a `transact` that returns OK has read the answer to it. -/
theorem Call.run_wrote (host : Host σ) (dev : Device) (s : σ) (c : Call) :
    let r := c.run host dev s
    ∃ evs, Makes host dev.timeoutMs s evs r.state ∧
      (∀ w, wrote evs = some w → c.draws = true ∧ w.seq = dev.nextSeq) ∧
      (c.isTransact = true → r.ret = .ok → ∃ w h, wrote evs = some w ∧ readRsp evs = some h ∧ Answers h w) := by
  intro r
  cases c with
  | transact chType chId msgType opcode payload payloadLen out cap =>
    obtain ⟨evs, hm, hseq, hok⟩ := transact_wrote host dev chType chId msgType opcode payload payloadLen out cap s
    exact ⟨evs, hm, fun w hw => ⟨rfl, hseq w hw⟩, fun _ => hok⟩
  | bleTransact opcode payload payloadLen rspPayload cap rspLen =>
    obtain ⟨evs, hm, hseq, hok⟩ := transact_wrote host dev ChannelType.bleMgmt.code 0 MsgType.cmd.code opcode
      payload payloadLen ⟨none, rspPayload, rspLen⟩ cap s
    exact ⟨evs, hm, fun w hw => ⟨rfl, hseq w hw⟩, fun _ => hok⟩
  | uartWrite port data len =>
    have hs : r.state = (UsbMux.uartWrite host dev port data len s).2.2 := rfl
    rcases uartWrite_cases host dev port data len s with ⟨-, hr⟩ | ⟨harg, ⟨-, hr⟩ | ⟨hb, hr⟩⟩
    · exact ⟨[], by rw [hs, hr]; exact rfl, fun w hw => (by cases hw), fun h => by cases h⟩
    · exact ⟨[], by rw [hs, hr]; exact rfl, fun w hw => (by cases hw), fun h => by cases h⟩
    · obtain ⟨evs, hm, -, hwrote⟩ := writeFrame_wrote host (UsbMux.nextSeq dev).2 s hb
      have hw := hwrote []
      rw [List.append_nil] at hw
      refine ⟨evs, by rw [hs, hr]; exact hm, fun w h => ?_, fun h => by cases h⟩
      rw [hw] at h
      cases h
      exact ⟨decide_eq_true harg, rfl⟩
  | uartRead port data cap len =>
    obtain ⟨evs, hm, hoff⟩ := reader_offers (uartRead_cases host dev port data cap len s)
    exact ⟨evs, hm, fun w h => (by rw [wrote_of_offered hoff] at h; cases h), fun h => by cases h⟩
  | bleReadEvent out cap =>
    obtain ⟨evs, hm, hoff⟩ := reader_offers (bleReadEvent_cases host dev out cap s)
    exact ⟨evs, hm, fun w h => (by rw [wrote_of_offered hoff] at h; cases h), fun h => by cases h⟩
  | nextSeq => exact ⟨[], rfl, fun w hw => (by cases hw), fun h => by cases h⟩

/-! ### Runs -/

/-- A call of a run: the device before it, its reply, and the transfers it
made. -/
structure Step (σ : Type) where
  call : Call
  before : Device
  reply : Reply σ Out
  events : List Event

/-- The step of a call. -/
def Call.step (host : Host σ) (dev : Device) (s : σ) (c : Call) : Step σ :=
  let r := c.run host.logged dev (s, [])
  ⟨c, dev, ⟨r.ret, r.out, r.dev, r.state.1⟩, r.state.2⟩

@[simp] theorem Call.step_call (host : Host σ) (dev : Device) (s : σ) (c : Call) : (c.step host dev s).call = c :=
  rfl

@[simp] theorem Call.step_before (host : Host σ) (dev : Device) (s : σ) (c : Call) :
    (c.step host dev s).before = dev := rfl

/-- The steps of the calls, one after the other. -/
def run (host : Host σ) : List Call → Device → σ → List (Step σ)
  | [], _, _ => []
  | c :: cs, dev, s =>
    let st := c.step host dev s
    st :: run host cs st.reply.dev st.reply.state

theorem run_cons (host : Host σ) (c : Call) (cs : List Call) (dev : Device) (s : σ) : run host (c :: cs) dev s =
    c.step host dev s :: run host cs (c.step host dev s).reply.dev (c.step host dev s).reply.state := rfl

/-- Each step of a run is its call's. -/
theorem run_step {host : Host σ} {calls : List Call} {dev : Device} {s : σ} {st : Step σ}
    (h : st ∈ run host calls dev s) : ∃ s', st = st.call.step host st.before s' := by
  induction calls generalizing dev s with
  | nil => cases h
  | cons c cs ih =>
    rw [run_cons] at h
    rcases List.mem_cons.mp h with rfl | h
    · exact ⟨s, rfl⟩
    · exact ih h

end UsbMux
