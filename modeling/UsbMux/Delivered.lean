/-
# Only received bytes reach the caller

A call that writes a request and waits, or only waits, ends in `receive`.
When that returns OK the frame has passed two decodes, with two lengths: the
second one, on the length the reader reported, fails for every header whose
length sum wraps. So the payload length is the frame's length less 24, and
the bytes copied to the caller are bytes the device sent in this call.

Key definitions: `Stores`, `Delivered`.
Key theorems: `transact_cases`, `receive_cases`, `receive_spec`,
`only_received_bytes`.
-/
import UsbMux.Reader
import UsbMux.Uart
import UsbMux.Ble

namespace UsbMux

open Buffer

variable {σ : Type}

/-! ### Writing makes OUT transfers only -/

theorem writeLoop_spec (host : Host σ) (dev : Device) (frame : Bytes) (frameLen offset : ℕ) (s : σ) :
    ∃ evs, Makes host dev.timeoutMs s evs (writeLoop host dev frame frameLen offset s).2 ∧
      received evs = [] ∧ (offset < frameLen → ∃ x rest,
        evs = .bulkOut ((frame.drop offset).take (frameLen - offset)) x :: rest) := by
  fun_induction writeLoop host dev frame frameLen offset s with
  | case1 offset s hlt chunk x s₁ hx hret =>
    exact ⟨[.bulkOut chunk x], ⟨s₁, hx, rfl⟩, rfl, fun _ => ⟨x, [], rfl⟩⟩
  | case2 offset s hlt chunk x s₁ hx hret hzero =>
    exact ⟨[.bulkOut chunk x], ⟨s₁, hx, rfl⟩, rfl, fun _ => ⟨x, [], rfl⟩⟩
  | case3 offset s hlt chunk x s₁ hx hret hzero ih =>
    obtain ⟨evs, hm, hrec, -⟩ := ih
    exact ⟨.bulkOut chunk x :: evs, ⟨s₁, hx, hm⟩, hrec, fun _ => ⟨x, evs, rfl⟩⟩
  | case4 offset s hlt => exact ⟨[], rfl, rfl, fun h => absurd h hlt⟩

/-- The frame is offered whole in the first transfer. -/
theorem writeFrame_spec (host : Host σ) (dev : Device) (frame : Bytes) (frameLen : ℕ) (s : σ) :
    ∃ evs, Makes host dev.timeoutMs s evs (writeFrame host dev frame frameLen s).2 ∧ received evs = [] ∧
      (0 < frameLen → frameLen ≤ 512 → ∃ x rest, evs = .bulkOut (frame.take frameLen) x :: rest) := by
  unfold writeFrame
  by_cases hbad : frameLen = 0 ∨ frameLen > MAX_FRAME_LEN
  · rw [if_pos hbad]
    exact ⟨[], rfl, rfl, fun h0 h512 => by simp only [MAX_FRAME_LEN] at hbad; omega⟩
  · rw [if_neg hbad]
    obtain ⟨evs, hm, hrec, hfirst⟩ := writeLoop_spec host dev frame frameLen 0 s
    exact ⟨evs, hm, hrec, fun h0 _ => by simpa using hfirst h0⟩

/-! ### Receiving -/

/-- The ways through `receive`: no frame is read, its header fails the second
decode, or `accept` decides. -/
theorem receive_cases (host : Host σ) (dev : Device) (accept : Header → Bytes → Out → Result × Out)
    (out : Out) (s : σ) :
    let rd := readFrame host dev (host.stack s 512) 512 0 s
    rd.ret ≠ .ok ∧ receive host dev accept out s = (rd.ret, out, rd.state) ∨
      rd.ret = .ok ∧ (∃ ret, decodeHeader rd.frame rd.frameLen = .error ret ∧
        receive host dev accept out s = (ret, out, rd.state)) ∨
      rd.ret = .ok ∧ ∃ h, decodeHeader rd.frame rd.frameLen = .ok h ∧
        receive host dev accept out s = ((accept h rd.frame out).1, (accept h rd.frame out).2, rd.state) := by
  intro rd
  unfold receive
  dsimp only
  split
  · rename_i hret
    exact .inl ⟨hret, rfl⟩
  · rename_i hret
    have hok : rd.ret = .ok := not_not.mp hret
    split
    · rename_i ret hd
      exact .inr (.inl ⟨hok, ret, hd, rfl⟩)
    · rename_i h hd
      exact .inr (.inr ⟨hok, h, hd, rfl⟩)

/-- The transfers of a `receive`, and what it has established when it returns
OK: a whole frame was received and `accept` took it. -/
theorem receive_spec (host : Host σ) (dev : Device) (accept : Header → Bytes → Out → Result × Out)
    (out : Out) (s : σ) :
    let r := receive host dev accept out s
    ∃ evs, Makes host dev.timeoutMs s evs r.2.2 ∧ offered evs = [] ∧ (r.1 = .ok → ∃ h frame,
      decodeHeader (received evs) (received evs).length = .ok h ∧
      h.totalLen.toNat = 24 + h.payloadLen.toNat ∧ h.totalLen.toNat ≤ 512 ∧
      h.totalLen.toNat ≤ (received evs).length ∧
      frame.take (received evs).length = received evs ∧ accept h frame out = (.ok, r.2.1)) := by
  intro r
  obtain ⟨evs, hm, hoff, hspec⟩ := readFrame_spec host dev maxFrameLen_lt_size (host.stack s 512) 0 s
  have hcases := receive_cases host dev accept out s
  set rd := readFrame host dev (host.stack s 512) 512 0 s
  refine ⟨evs, ?_, hoff, fun hret => ?_⟩
  · rcases hcases with ⟨-, hr⟩ | ⟨-, ret, -, hr⟩ | ⟨-, h, -, hr⟩ <;> rw [show r = _ from hr] <;> exact hm
  · rcases hcases with ⟨hne, hr⟩ | ⟨-, ret, hd, hr⟩ | ⟨hok, h₂, hd, hr⟩
    · rw [show r = _ from hr] at hret
      exact absurd hret hne
    · rw [show r = _ from hr] at hret
      exact absurd hret (decodeHeader_error_ne_ok hd)
    · obtain ⟨hR, hle, hframe, h, hdec, hlen⟩ := hspec hok
      -- the second decode: the reported length is a header's at least, so nothing wraps
      have h24 := le_of_decodeHeader_eq_ok hd
      have hsame : decodeHeader (received evs) (received evs).length = .ok h₂ := by
        rw [← hd, hframe]
        exact decodeHeader_front (List.prefix_append ..) hR hR h24
      obtain rfl : h₂ = h := Except.ok.inj (hsame.symm.trans hdec)
      obtain ⟨-, -, hsealed⟩ := (decodeHeader_eq_ok hR).mp hdec
      refine ⟨h₂, rd.frame, hdec, hsealed.totalLen_of_le (by omega), hsealed.totalLen_le, by omega, ?_, ?_⟩
      · rw [hframe, List.take_left' rfl]
      · rw [show r = _ from hr] at hret ⊢
        exact Prod.ext hret rfl

/-- The ways through `transact`: the request is not built, it is not
written, or its answer is received. The device has drawn a number in each. -/
theorem transact_cases (host : Host σ) (dev : Device) (chType chId msgType opcode : UInt8)
    (payload : Option Bytes) (payloadLen : ℕ) (out : Out) (rspCapacity : ℕ) (s : σ) :
    let r := transact host dev chType chId msgType opcode payload payloadLen out rspCapacity s
    let dev' := (nextSeq dev).2
    let b := buildFrame (host.stack s 512) 512 0 { Header.zero with
      seq := dev.nextSeq, chType := chType, chId := chId, msgType := msgType, opcode := opcode } payload payloadLen
    let w := writeFrame host dev' b.dst b.frameLen s
    r.dev = dev' ∧
      (b.ret ≠ .ok ∧ r.ret = b.ret ∧ r.out = out ∧ r.state = s ∨
        b.ret = .ok ∧ w.1 ≠ .ok ∧ r.ret = w.1 ∧ r.out = out ∧ r.state = w.2 ∨
        b.ret = .ok ∧ w.1 = .ok ∧ (r.ret, r.out, r.state) =
          receive host dev' (acceptResponse b.header.seq chType chId opcode rspCapacity) out w.2) := by
  intro r dev' b w
  have hr : r = if b.ret ≠ .ok then ⟨b.ret, out, dev', s⟩ else
      if w.1 ≠ .ok then ⟨w.1, out, dev', w.2⟩ else
        let v := receive host dev' (acceptResponse b.header.seq chType chId opcode rspCapacity) out w.2
        ⟨v.1, v.2.1, dev', v.2.2⟩ := rfl
  by_cases hb : b.ret = .ok
  · rw [if_neg (by simp [hb])] at hr
    by_cases hw : w.1 = .ok
    · rw [if_neg (by simp [hw])] at hr
      exact ⟨by rw [hr], Or.inr (Or.inr ⟨hb, hw, by rw [hr]⟩)⟩
    · rw [if_pos hw] at hr
      exact ⟨by rw [hr], Or.inr (Or.inl ⟨hb, hw, by rw [hr], by rw [hr], by rw [hr]⟩)⟩
  · rw [if_pos hb] at hr
    exact ⟨by rw [hr], Or.inl ⟨hb, by rw [hr], by rw [hr], by rw [hr]⟩⟩

/-- `uartRead` receives, if the caller has given it where to store. -/
theorem uartRead_cases (host : Host σ) (dev : Device) (port : UInt8) (data : Option Bytes) (capacity : ℕ)
    (len : Option ℕ) (s : σ) :
    let out : Out := ⟨none, data, len⟩
    uartRead host dev port data capacity len s = (.errArg, out, s) ∨
      uartRead host dev port data capacity len s = receive host dev (acceptData port capacity) out s := by
  unfold uartRead
  by_cases harg : data.isNone ∨ len.isNone
  · exact .inl (if_pos harg)
  · exact .inr (if_neg harg)

theorem bleReadEvent_cases (host : Host σ) (dev : Device) (out : Out) (capacity : ℕ) (s : σ) :
    bleReadEvent host dev out capacity s = (.errArg, out, s) ∨
      bleReadEvent host dev out capacity s = receive host dev (acceptEvent capacity) out s := by
  unfold bleReadEvent
  by_cases harg : out.len.isNone
  · exact .inl (if_pos harg)
  · exact .inr (if_neg harg)

/-- Both readers, which refuse their arguments or receive, write nothing. -/
theorem reader_offers {accept : Header → Bytes → Out → Result × Out} {host : Host σ} {dev : Device} {out : Out}
    {s : σ} {r : Result × Out × σ} (hr : r = (.errArg, out, s) ∨ r = receive host dev accept out s) :
    ∃ evs, Makes host dev.timeoutMs s evs r.2.2 ∧ offered evs = [] := by
  rcases hr with rfl | rfl
  · exact ⟨[], rfl, rfl⟩
  · obtain ⟨evs, hm, hoff, -⟩ := receive_spec host dev accept out s
    exact ⟨evs, hm, hoff⟩

/-! ### What is handed over -/

/-- `accept` takes a frame only when its payload fits `capacity`, and then
stores it. -/
def Stores (capacity : ℕ) (accept : Header → Bytes → Out → Result × Out) : Prop :=
  ∀ h frame out out', accept h frame out = (.ok, out') →
    h.payloadLen.toNat ≤ capacity ∧ out' = out.store h frame

theorem acceptResponse_stores (seq : UInt16) (chType chId opcode : UInt8) (capacity : ℕ) :
    Stores capacity (acceptResponse seq chType chId opcode capacity) := by
  intro h frame out out' ha
  unfold acceptResponse at ha
  split_ifs at ha <;> cases ha
  exact ⟨by omega, rfl⟩

theorem acceptData_stores (port : UInt8) (capacity : ℕ) : Stores capacity (acceptData port capacity) := by
  intro h frame out out' ha
  unfold acceptData at ha
  split_ifs at ha <;> cases ha
  exact ⟨by omega, rfl⟩

theorem acceptEvent_stores (capacity : ℕ) : Stores capacity (acceptEvent capacity) := by
  intro h frame out out' ha
  unfold acceptEvent at ha
  split_ifs at ha <;> cases ha
  exact ⟨by omega, rfl⟩

/-- The caller's objects went from `out` to `out'` by receiving `R`: the
length reported is within the limits, that many bytes came in behind the
header, and they are the ones stored. -/
def Delivered (capacity : ℕ) (R : Bytes) (out out' : Out) : Prop :=
  ∃ h L, decodeHeader R R.length = .ok h ∧ h.payloadLen.toNat = L ∧
    L ≤ 488 ∧ L ≤ capacity ∧ 24 + L ≤ R.length ∧
    out'.len = out.len.map (fun _ => L) ∧
    out'.payload = out.payload.map (fun p => (R.drop 24).take L ++ p.drop L)

theorem receive_delivered {capacity : ℕ} {accept : Header → Bytes → Out → Result × Out}
    (hst : Stores capacity accept) (host : Host σ) (dev : Device) (out : Out) (s : σ) :
    let r := receive host dev accept out s
    ∃ evs, Makes host dev.timeoutMs s evs r.2.2 ∧
      (r.1 = .ok → Delivered capacity (received evs) out r.2.1) := by
  intro r
  obtain ⟨evs, hm, -, hspec⟩ := receive_spec host dev accept out s
  refine ⟨evs, hm, fun hok => ?_⟩
  obtain ⟨h, frame, hdec, htotal, h512, hle, hframe, hacc⟩ := hspec hok
  obtain ⟨hcap, hout⟩ := hst h frame out _ hacc
  have hlen : ((received evs).drop 24).length = (received evs).length - 24 := List.length_drop
  -- what is copied out of the stack buffer lies in the bytes received
  have hcopy : (frame.drop 24).take h.payloadLen.toNat = ((received evs).drop 24).take h.payloadLen.toNat :=
    calc (frame.drop 24).take h.payloadLen.toNat
        = ((frame.take (received evs).length).drop 24).take h.payloadLen.toNat := by
          rw [List.drop_take, List.take_take, Nat.min_eq_left (by omega)]
      _ = ((received evs).drop 24).take h.payloadLen.toNat := by rw [hframe]
  refine ⟨h, _, hdec, rfl, by omega, hcap, by omega, ?_, ?_⟩
  · rw [hout]
    rfl
  · rw [hout]
    show out.payload.map _ = _
    congr 1
    funext p
    rw [writeAt_zero, show HEADER_LEN = 24 from rfl, hcopy, List.length_take,
      Nat.min_eq_left (by omega)]

theorem reader_delivered {capacity : ℕ} {accept : Header → Bytes → Out → Result × Out} (hst : Stores capacity accept)
    {host : Host σ} {dev : Device} {out : Out} {s : σ} {r : Result × Out × σ}
    (hr : r = (.errArg, out, s) ∨ r = receive host dev accept out s) (hok : r.1 = .ok) :
    ∃ evs, Makes host dev.timeoutMs s evs r.2.2 ∧ Delivered capacity (received evs) out r.2.1 := by
  rcases hr with rfl | rfl
  · cases hok
  · obtain ⟨evs, hm, hd⟩ := receive_delivered hst host dev out s
    exact ⟨evs, hm, hd hok⟩

theorem transact_delivered (host : Host σ) (dev : Device) (chType chId msgType opcode : UInt8)
    (payload : Option Bytes) (payloadLen : ℕ) (out : Out) (rspCapacity : ℕ) (s : σ) :
    let r := transact host dev chType chId msgType opcode payload payloadLen out rspCapacity s
    ∃ evs, Makes host dev.timeoutMs s evs r.state ∧
      (r.ret = .ok → Delivered rspCapacity (received evs) out r.out) := by
  intro r
  obtain ⟨-, hr⟩ := transact_cases host dev chType chId msgType opcode payload payloadLen out rspCapacity s
  rcases hr with ⟨hb, hret, -, hs⟩ | ⟨-, hw, hret, -, hs⟩ | ⟨-, -, hr⟩
  · exact ⟨[], hs.symm, fun hok => absurd (hret.symm.trans hok) hb⟩
  · obtain ⟨evs, hm, -⟩ := writeFrame_spec host (nextSeq dev).2 _ _ s
    exact ⟨evs, hs ▸ hm, fun hok => absurd (hret.symm.trans hok) hw⟩
  · obtain ⟨wevs, hwm, hwrec, -⟩ := writeFrame_spec host (nextSeq dev).2 _ _ s
    obtain ⟨evs, hm, hd⟩ := receive_delivered (acceptResponse_stores _ chType chId opcode rspCapacity) host
      (nextSeq dev).2 out _
    obtain ⟨hret, hr⟩ := Prod.mk.inj hr
    obtain ⟨hout, hs⟩ := Prod.mk.inj hr
    refine ⟨wevs ++ evs, hs ▸ hwm.append hm, fun hok => ?_⟩
    rw [received_append, hwrec, List.nil_append, hout]
    exact hd (hret.symm.trans hok)

/-- **Only received bytes are delivered.** Whatever the transfers return, a
call that returns OK hands over payload bytes received in this call. -/
theorem only_received_bytes (host : Host σ) (dev : Device) (out : Out) (capacity : ℕ) (s : σ) :
    (∀ chType chId msgType opcode payload payloadLen,
      let r := transact host.logged dev chType chId msgType opcode payload payloadLen out capacity (s, [])
      r.ret = .ok → Delivered capacity (received r.state.2) out r.out) ∧
    (∀ opcode payload payloadLen,
      let r := bleTransact host.logged dev opcode payload payloadLen out.payload capacity out.len (s, [])
      r.ret = .ok → Delivered capacity (received r.state.2) out r.out) ∧
    (∀ port,
      let r := uartRead host.logged dev port out.payload capacity out.len (s, [])
      r.1 = .ok → Delivered capacity (received r.2.2.2) out r.2.1) ∧
    (let r := bleReadEvent host.logged dev out capacity (s, [])
     r.1 = .ok → Delivered capacity (received r.2.2.2) out r.2.1) := by
  refine ⟨?_, ?_, ?_, ?_⟩
  · intro chType chId msgType opcode payload payloadLen r hok
    obtain ⟨evs, hm, hd⟩ := transact_delivered host.logged dev chType chId msgType opcode payload payloadLen
      out capacity (s, [])
    rw [hm.log]
    exact hd hok
  · intro opcode payload payloadLen r hok
    obtain ⟨evs, hm, hd⟩ := transact_delivered host.logged dev ChannelType.bleMgmt.code 0 MsgType.cmd.code
      opcode payload payloadLen ⟨none, out.payload, out.len⟩ capacity (s, [])
    rw [show r.state.2 = _ from hm.log]
    exact hd hok
  · intro port r hok
    obtain ⟨evs, hm, hd⟩ := reader_delivered (acceptData_stores port capacity)
      (uartRead_cases host.logged dev port out.payload capacity out.len (s, [])) hok
    rw [hm.log]
    exact hd
  · intro r hok
    obtain ⟨evs, hm, hd⟩ := reader_delivered (acceptEvent_stores capacity)
      (bleReadEvent_cases host.logged dev out capacity (s, [])) hok
    rw [hm.log]
    exact hd

theorem only_received_event :
    let frame := frameBytes ({ Header.zero with msgType := MsgType.evt.code }.forPayload [0x11]) [0x11]
    let out : Out := ⟨none, some [0, 0], some 0⟩
    let r := bleReadEvent (Pipe.host Stack.zero silent).logged freshDevice out 2 (⟨[.packet frame], ()⟩, [])
    r.1 = .ok ∧ Delivered 2 (received r.2.2.2) out r.2.1 :=
  ⟨by decide +kernel, (only_received_bytes _ _ _ 2 _).2.2.2 (by decide +kernel)⟩

end UsbMux
