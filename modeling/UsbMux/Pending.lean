/-
# Calls and the frames that are pending

RSP, EVT and DATA frames of all channels come in on one endpoint. A call that
waits reads one frame, the first one pending, whatever it is
(`Call.run_frame`): if the frame is addressed to the call its verdict depends
on that frame alone, and otherwise the call returns ERR_PROTO and the frame
is gone. Over a run the `k`-th call takes the `k`-th frame.

Key definitions: `Accepts`, `Call.Waits`, `Call.accept`, `Call.Addressed`,
`Undisturbed`.
Key theorems: `transact_of_accepts`, `Pipe.transact`, `Call.run_frame`, `pending_in_order`.
-/
import UsbMux.Sim
import UsbMux.Stream

namespace UsbMux

open Buffer

variable {σ δ : Type}

/-! ### Receiving a frame -/

/-- What is stored depends on the frame, not on what the stack held. -/
theorem Out.store_frame (out : Out) (f : Frame) (more : Bytes) :
    out.store f.header (f.bytes ++ more) = out.store f.header f.bytes := by
  have hlen := f.length_payload
  have htake : ((f.bytes ++ more).drop HEADER_LEN).take f.header.payloadLen.toNat =
      (f.bytes.drop HEADER_LEN).take f.header.payloadLen.toNat := by
    rw [List.drop_append_of_le_length (by simp only [HEADER_LEN]; omega)]
    exact List.take_append_of_le_length (by simp only [List.length_drop, HEADER_LEN]; omega)
  unfold Out.store
  rw [htake]

/-- A frame that is delivered is decided on. -/
theorem receive_of_delivers {host : Host σ} {dev : Device} (accept : Header → Bytes → Out → Result × Out) (out : Out)
    (f : CutFrame) {s s' : σ} (hd : Delivers host dev.timeoutMs s f.events s') :
    receive host dev accept out s =
      ((accept f.header (f.bytes ++ (host.stack s 512).drop f.bytes.length) out).1,
        (accept f.header (f.bytes ++ (host.stack s 512).drop f.bytes.length) out).2, s') := by
  have hr := readFrame_of_delivers maxFrameLen_lt_int (host.stack s 512) 0 f f.length_le hd
  have hdec : decodeHeader (f.bytes ++ (host.stack s 512).drop f.bytes.length) f.bytes.length = .ok f.header := by
    rw [← f.decodes]
    exact (decodeHeader_front (List.prefix_append ..) f.le_length f.le_length f.le_length).symm
  simp only [receive, MAX_FRAME_LEN, hr, ne_eq, not_true_eq_false, if_false, hdec]

theorem receive_of_timeout {host : Host σ} {dev : Device} (accept : Header → Bytes → Out → Result × Out)
    (out : Out) {s s₁ : σ} (hx : ∀ n, host.bulkIn dev.timeoutMs n s = (⟨.timeout, []⟩, s₁)) :
    receive host dev accept out s = (.errTimeout, out, s₁) := by
  unfold receive
  rw [readFrame_timeout (host.stack s MAX_FRAME_LEN) hx]
  exact if_pos (by simp)

/-! ### Requests that go out -/

/-- From `s` the host takes the bytes `b`, some in each transfer, and is then
in `s'`. -/
inductive Accepts (host : Host σ) (t : ℕ) : σ → Bytes → σ → Prop
  | done (s : σ) : Accepts host t s [] s
  | take {s s₁ s' : σ} {b : Bytes} {n : ℕ} (hn : 0 < n) (hx : host.bulkOut t b s = (⟨.success, n⟩, s₁))
      (hrest : Accepts host t s₁ (b.drop n) s') : Accepts host t s b s'

theorem writeLoop_of_accepts {host : Host σ} {dev : Device} {frame : Bytes} {frameLen : ℕ}
    (hlen : frameLen ≤ frame.length)
    {b : Bytes} {s s' : σ} (h : Accepts host dev.timeoutMs s b s') :
    ∀ {offset : ℕ}, (frame.drop offset).take (frameLen - offset) = b →
      writeLoop host dev frame frameLen offset s = (.ok, s') := by
  induction h with
  | done s =>
    intro offset hb
    have hzero := congrArg List.length hb
    rw [List.length_take, List.length_drop, List.length_nil] at hzero
    rw [writeLoop, if_neg (by omega)]
  | take hn hx hrest ih =>
    rename_i s s₁ s' b n
    intro offset hb
    have hle := host.bulkOut_le dev.timeoutMs b s
    rw [hx] at hle
    have hlenb := congrArg List.length hb
    rw [List.length_take, List.length_drop] at hlenb
    rw [writeLoop, if_pos (by dsimp only at hle; omega)]
    simp only [hb, hx]
    rw [if_neg (by simp), if_neg (by omega)]
    apply ih
    rw [← hb, List.drop_take, List.drop_drop, Nat.sub_sub]

/-- A frame the host takes is written. -/
theorem writeFrame_of_accepts {host : Host σ} {dev : Device} {frame : Bytes} {frameLen : ℕ} (h0 : 0 < frameLen)
    (h512 : frameLen ≤ 512) (hlen : frameLen ≤ frame.length) {s s' : σ}
    (h : Accepts host dev.timeoutMs s (frame.take frameLen) s') : writeFrame host dev frame frameLen s = (.ok, s') := by
  unfold writeFrame
  rw [if_neg (by simp only [MAX_FRAME_LEN]; omega)]
  exact writeLoop_of_accepts hlen h rfl

/-- A pipe takes everything at once. -/
theorem Pipe.accepts (stack : Stack) (react : Bytes → δ → List InEvent × δ) (t : ℕ) {b : Bytes} (hb : 0 < b.length)
    (s : Pipe δ) : Accepts (Pipe.host stack react) t s b ⟨s.inq ++ (react b s.device).1, (react b s.device).2⟩ := by
  apply Accepts.take hb rfl
  rw [List.drop_length]
  exact .done _

/-- The header of a `transact` request. -/
def request (seq : UInt16) (chType chId msgType opcode : UInt8) (payloadLen : ℕ) : Header :=
  { Header.zero with seq := seq, chType := chType, chId := chId, msgType := msgType, opcode := opcode }.forLen
    payloadLen

section

variable {host : Host σ} {dev : Device} {chType chId msgType opcode : UInt8} {payload : Option Bytes} {payloadLen : ℕ}

/-- **A `transact` whose request is taken** goes on to receive. -/
theorem transact_of_accepts (hfits : Fits 512 payload payloadLen) {s s₁ : σ}
    (hacc : let b := buildFrame (host.stack s 512) 512 0 { Header.zero with
        seq := dev.nextSeq, chType := chType, chId := chId, msgType := msgType, opcode := opcode } payload payloadLen
      Accepts host dev.timeoutMs s (b.dst.take b.frameLen) s₁) (out : Out) (rspCapacity : ℕ) :
    let v := receive host (nextSeq dev).2 (acceptResponse dev.nextSeq chType chId opcode rspCapacity) out s₁
    transact host dev chType chId msgType opcode payload payloadLen out rspCapacity s =
      ⟨v.1, v.2.1, (nextSeq dev).2, v.2.2⟩ := by
  intro v
  have hstack : 512 ≤ (host.stack s 512).length := (host.length_stack s 512).ge
  set req : Header := { Header.zero with
    seq := dev.nextSeq, chType := chType, chId := chId, msgType := msgType, opcode := opcode } with hreq
  obtain ⟨hlen, -⟩ := decodeHeader_built 0 req hfits hstack
  have hb := buildFrame_eq 0 req hfits hstack
  set b := buildFrame (host.stack s 512) 512 0 req payload payloadLen with hbdef
  have hfl : b.frameLen = 24 + payloadLen := by rw [hb]
  have hp := hfits.2.1
  have hret : b.ret = .ok := by rw [hb]
  have hseq : b.header.seq = dev.nextSeq := by rw [hb]; rfl
  have hdst : b.frameLen ≤ b.dst.length := by
    rw [← hlen]
    exact List.length_take_le' _ _
  have hw : writeFrame host (nextSeq dev).2 b.dst b.frameLen s = (.ok, s₁) :=
    writeFrame_of_accepts (by omega) (by omega) hdst hacc
  obtain ⟨hdev, hcases⟩ := transact_cases host dev chType chId msgType opcode payload payloadLen out rspCapacity s
  rcases hcases with ⟨hne, -⟩ | ⟨-, hne, -⟩ | ⟨-, -, hr⟩
  · exact absurd hret hne
  · exact absurd (congrArg Prod.fst hw) hne
  · rw [show writeFrame _ _ _ _ s = _ from hw, show Header.seq _ = _ from hseq] at hr
    obtain ⟨hret, hr⟩ := Prod.mk.inj hr
    obtain ⟨hout, hs⟩ := Prod.mk.inj hr
    exact Reply.ext hret hout hdev hs

variable {stack : Stack} {react : Bytes → δ → List InEvent × δ} {s : Pipe δ} {q : List InEvent} {d : δ}

/-- **A `transact` on a pipe**: the request goes out whole, the device queues
`q` for it, and the call receives from what is pending then. -/
theorem Pipe.transact (hfits : Fits 512 payload payloadLen)
    (hreact : ∀ chunk, decodeHeader chunk chunk.length =
      .ok (request dev.nextSeq chType chId msgType opcode payloadLen) → react chunk s.device = (q, d))
    (out : Out) (rspCapacity : ℕ) :
    let v := receive (Pipe.host stack react) (nextSeq dev).2
      (acceptResponse dev.nextSeq chType chId opcode rspCapacity) out ⟨s.inq ++ q, d⟩
    UsbMux.transact (Pipe.host stack react) dev chType chId msgType opcode payload payloadLen out rspCapacity s =
      ⟨v.1, v.2.1, (nextSeq dev).2, v.2.2⟩ := by
  have hstack : 512 ≤ ((Pipe.host stack react).stack s 512).length := (stack.length_bytes 512).ge
  apply transact_of_accepts hfits
  intro b
  obtain ⟨hlen, hdec⟩ := decodeHeader_built 0 { Header.zero with
    seq := dev.nextSeq, chType := chType, chId := chId, msgType := msgType, opcode := opcode } hfits hstack
  have h24 : 24 ≤ (b.dst.take b.frameLen).length := le_of_decodeHeader_eq_ok hdec
  have hacc := Pipe.accepts stack react dev.timeoutMs (show 0 < (b.dst.take b.frameLen).length by omega) s
  rwa [hreact _ hdec] at hacc

/-- With a frame pending the call decides on the first one. -/
theorem Pipe.transact_frame (hfits : Fits 512 payload payloadLen)
    (hreact : ∀ chunk, decodeHeader chunk chunk.length =
      .ok (request dev.nextSeq chType chId msgType opcode payloadLen) → react chunk s.device = (q, d))
    {f : CutFrame} {rest : List InEvent} (hq : s.inq ++ q = f.events ++ rest) (out : Out) (rspCapacity : ℕ) :
    let v := acceptResponse dev.nextSeq chType chId opcode rspCapacity f.header f.bytes out
    UsbMux.transact (Pipe.host stack react) dev chType chId msgType opcode payload payloadLen out rspCapacity s =
      ⟨v.1, v.2, (nextSeq dev).2, ⟨rest, d⟩⟩ := by
  have hd := Pipe.delivers stack react (nextSeq dev).2.timeoutMs d rest f.events
  rw [Pipe.transact hfits hreact, hq, receive_of_delivers _ _ f hd]
  simp only [acceptResponse, Out.store_frame]

/-- With nothing pending it times out. -/
theorem Pipe.transact_timeout (hfits : Fits 512 payload payloadLen)
    (hreact : ∀ chunk, decodeHeader chunk chunk.length =
      .ok (request dev.nextSeq chType chId msgType opcode payloadLen) → react chunk s.device = (q, d))
    (hq : s.inq ++ q = []) (out : Out) (rspCapacity : ℕ) :
    UsbMux.transact (Pipe.host stack react) dev chType chId msgType opcode payload payloadLen out rspCapacity s =
      ⟨.errTimeout, out, (nextSeq dev).2, ⟨[], d⟩⟩ := by
  have hempty : ∀ n, (Pipe.host stack react).bulkIn (nextSeq dev).2.timeoutMs n ⟨[], d⟩ =
      (⟨.timeout, []⟩, ⟨[], d⟩) := fun _ => rfl
  rw [Pipe.transact hfits hreact, hq, receive_of_timeout _ _ hempty]

end

/-! ### Calls that wait -/

/-- The call gets as far as reading a frame: its request fits a frame, the
pointers it writes through are there. -/
def Call.Waits : Call → Prop
  | transact _ _ _ _ payload payloadLen _ _ => Fits 512 payload payloadLen
  | bleTransact _ payload payloadLen _ _ _ => Fits 512 payload payloadLen
  | uartRead _ data _ len => ¬(data.isNone ∨ len.isNone)
  | bleReadEvent out _ => ¬out.len.isNone
  | uartWrite .. => False
  | nextSeq => False

instance : (c : Call) → Decidable c.Waits
  | .transact _ _ _ _ payload payloadLen _ _ => inferInstanceAs (Decidable (Fits 512 payload payloadLen))
  | .bleTransact _ payload payloadLen _ _ _ => inferInstanceAs (Decidable (Fits 512 payload payloadLen))
  | .uartRead _ _ _ _ => inferInstanceAs (Decidable (¬_))
  | .bleReadEvent _ _ => inferInstanceAs (Decidable (¬_))
  | .uartWrite .. => inferInstanceAs (Decidable False)
  | .nextSeq => inferInstanceAs (Decidable False)

/-- The verdict of a call on the frame it has read. -/
def Call.accept (dev : Device) : Call → Header → Bytes → Result × Out
  | transact chType chId _ opcode _ _ out rspCapacity, h, frame =>
    acceptResponse dev.nextSeq chType chId opcode rspCapacity h frame out
  | bleTransact opcode _ _ rspPayload rspCapacity rspLen, h, frame =>
    acceptResponse dev.nextSeq ChannelType.bleMgmt.code 0 opcode rspCapacity h frame ⟨none, rspPayload, rspLen⟩
  | uartRead port data capacity len, h, frame => acceptData port capacity h frame ⟨none, data, len⟩
  | bleReadEvent out payloadCapacity, h, frame => acceptEvent payloadCapacity h frame out
  | c, _, _ => (.ok, c.out)

/-- **A call that waits takes the first frame pending**, and decides on it. -/
theorem Call.run_frame {c : Call} (hc : c.Waits) (stack : Stack) (dev : Device) (f : CutFrame) (rest : List InEvent) :
    c.run (Pipe.host stack silent) dev ⟨f.events ++ rest, ()⟩ =
      ⟨(c.accept dev f.header f.bytes).1, (c.accept dev f.header f.bytes).2,
        if c.draws then (UsbMux.nextSeq dev).2 else dev, ⟨rest, ()⟩⟩ := by
  have hd : ∀ t, Delivers (Pipe.host stack silent) t ⟨f.events ++ rest, ()⟩ f.events ⟨rest, ()⟩ :=
    fun t => Pipe.delivers stack silent t () rest f.events
  have hq : (f.events ++ rest) ++ [] = f.events ++ rest := List.append_nil _
  cases c with
  | transact chType chId msgType opcode payload payloadLen out cap =>
    exact Pipe.transact_frame hc (fun _ _ => rfl) hq out cap
  | bleTransact opcode payload payloadLen rspPayload cap rspLen =>
    exact Pipe.transact_frame hc (fun _ _ => rfl) hq ⟨none, rspPayload, rspLen⟩ cap
  | uartWrite port data len => cases hc
  | uartRead port data cap len =>
    simp only [Call.run, UsbMux.uartRead]
    rw [if_neg hc]
    simp only [receive_of_delivers _ _ f (hd _), acceptData, Out.store_frame]
    rfl
  | bleReadEvent out cap =>
    simp only [Call.run, UsbMux.bleReadEvent]
    rw [if_neg hc]
    simp only [receive_of_delivers _ _ f (hd _), acceptEvent, Out.store_frame]
    rfl
  | nextSeq => cases hc

/-! ### Addressed frames -/

/-- The frame with header `h` is addressed to the call. -/
def Call.Addressed (dev : Device) : Call → Header → Prop
  | transact chType chId _ opcode _ _ _ _, h => h.msgType = MsgType.rsp.code ∧ h.refSeq = dev.nextSeq ∧
    h.chType = chType ∧ h.chId = chId ∧ h.opcode = opcode
  | bleTransact opcode _ _ _ _ _, h => h.msgType = MsgType.rsp.code ∧ h.refSeq = dev.nextSeq ∧
    h.chType = ChannelType.bleMgmt.code ∧ h.chId = 0 ∧ h.opcode = opcode
  | uartRead port _ _ _, h => h.chType = ChannelType.uartData.code ∧ h.chId = port ∧
    h.msgType = MsgType.data.code
  | bleReadEvent _ _, h => h.msgType = MsgType.evt.code
  | _, _ => False

instance (dev : Device) (h : Header) : (c : Call) → Decidable (c.Addressed dev h)
  | .transact .. => inferInstanceAs (Decidable (_ ∧ _))
  | .bleTransact .. => inferInstanceAs (Decidable (_ ∧ _))
  | .uartRead .. => inferInstanceAs (Decidable (_ ∧ _))
  | .bleReadEvent .. => inferInstanceAs (Decidable (_ = _))
  | .uartWrite .. => inferInstanceAs (Decidable False)
  | .nextSeq => inferInstanceAs (Decidable False)

theorem acceptResponse_proto {seq : UInt16} {chType chId opcode : UInt8} {cap : ℕ} {h : Header} {frame : Bytes}
    {out : Out} : (h.msgType = MsgType.rsp.code ∧ h.refSeq = seq ∧ h.chType = chType ∧ h.chId = chId ∧
        h.opcode = opcode → (acceptResponse seq chType chId opcode cap h frame out).1 ≠ .errProto) ∧
      (¬(h.msgType = MsgType.rsp.code ∧ h.refSeq = seq ∧ h.chType = chType ∧ h.chId = chId ∧ h.opcode = opcode) →
        acceptResponse seq chType chId opcode cap h frame out = (.errProto, out)) := by
  unfold acceptResponse
  constructor
  · rintro ⟨h1, h2, h3, h4, h5⟩
    rw [if_neg (by simp [h1, h2, h3, h4, h5])]
    split_ifs <;> simp
  · intro hno
    rw [if_pos]
    by_contra hall
    simp only [not_or, ne_eq, not_not] at hall
    exact hno hall

/-- A frame addressed to the call is not a protocol error. -/
theorem Call.accept_of_addressed {c : Call} {dev : Device} {h : Header} (ha : c.Addressed dev h) (frame : Bytes) :
    (c.accept dev h frame).1 ≠ .errProto := by
  cases c with
  | transact chType chId msgType opcode payload payloadLen out cap => exact acceptResponse_proto.1 ha
  | bleTransact opcode payload payloadLen rspPayload cap rspLen => exact acceptResponse_proto.1 ha
  | uartWrite port data len => cases ha
  | uartRead port data cap len =>
    obtain ⟨h1, h2, h3⟩ := ha
    simp only [Call.accept, acceptData]
    rw [if_neg (by simp [h1, h2, h3])]
    split_ifs <;> simp
  | bleReadEvent out cap =>
    have hmsg : h.msgType = MsgType.evt.code := ha
    simp only [Call.accept, acceptEvent]
    rw [if_neg (by simp [hmsg])]
    split_ifs <;> simp
  | nextSeq => cases ha

/-- Any other frame is one, and leaves the caller's objects as they were. -/
theorem Call.accept_of_not_addressed {c : Call} (hc : c.Waits) {dev : Device} {h : Header}
    (ha : ¬c.Addressed dev h) (frame : Bytes) : c.accept dev h frame = (.errProto, c.out) := by
  cases c with
  | transact chType chId msgType opcode payload payloadLen out cap => exact acceptResponse_proto.2 ha
  | bleTransact opcode payload payloadLen rspPayload cap rspLen => exact acceptResponse_proto.2 ha
  | uartWrite port data len => cases hc
  | uartRead port data cap len =>
    apply if_pos
    by_contra hall
    simp only [not_or, ne_eq, not_not] at hall
    exact ha hall
  | bleReadEvent out cap => exact if_pos ha
  | nextSeq => cases hc

/-! ### A queue of frames -/

/-- These frames are pending. -/
def queueOf (frames : List CutFrame) : Pipe Unit := ⟨frames.flatMap CutFrame.events, ()⟩

/-- On a queue that holds a frame addressed to it, the call does what it does
when that frame is the first, and leaves all others pending. -/
def Undisturbed (stack : Stack) (dev : Device) (c : Call) (frames : List CutFrame) : Prop :=
  ∀ pre f post, frames = pre ++ f :: post → (∀ g ∈ pre, ¬c.Addressed dev g.header) → c.Addressed dev f.header →
    let r := c.run (Pipe.host stack silent) dev (queueOf frames)
    let r' := c.run (Pipe.host stack silent) dev (queueOf (f :: post))
    r.ret = r'.ret ∧ r.out = r'.out ∧ r.state = queueOf (pre ++ post)

/-- The first of the pending frames that is addressed to the call. -/
theorem Call.first_addressed {c : Call} {dev : Device} {frames : List CutFrame}
    (hmem : ∃ f ∈ frames, c.Addressed dev f.header) : ∃ pre f post, frames = pre ++ f :: post ∧
      (∀ g ∈ pre, ¬c.Addressed dev g.header) ∧ c.Addressed dev f.header := by
  have hsome : (frames.find? fun f => c.Addressed dev f.header).isSome := by simpa using hmem
  obtain ⟨f, hf⟩ := Option.isSome_iff_exists.mp hsome
  obtain ⟨haddr, pre, post, hsplit, hpre⟩ := List.find?_eq_some_iff_append.mp hf
  exact ⟨pre, f, post, hsplit, by simpa using hpre, by simpa using haddr⟩

/-- A call is undisturbed by the frames for other calls exactly when none of
them is pending before its own. -/
theorem undisturbed_iff {c : Call} (hc : c.Waits) (stack : Stack) (dev : Device) {frames : List CutFrame}
    (hmem : ∃ f ∈ frames, c.Addressed dev f.header) :
    Undisturbed stack dev c frames ↔ ∃ f fs, frames = f :: fs ∧ c.Addressed dev f.header := by
  constructor
  · intro hund
    obtain ⟨pre, f, post, rfl, hpre, hf⟩ := Call.first_addressed hmem
    rcases pre with _ | ⟨g, pre⟩
    · exact ⟨f, post, rfl, hf⟩
    · -- the frame before it is taken, and is an error
      have hret := (hund (g :: pre) f post rfl hpre hf).1
      simp only [List.cons_append, queueOf, List.flatMap_cons, Call.run_frame hc] at hret
      rw [Call.accept_of_not_addressed hc (hpre g (by simp))] at hret
      exact absurd hret.symm (Call.accept_of_addressed hf _)
  · rintro ⟨f, fs, rfl, hf⟩ pre f' post hsplit hpre hf' r r'
    rcases pre with _ | ⟨g, pre⟩
    · obtain ⟨rfl, rfl⟩ := List.cons.inj hsplit
      refine ⟨rfl, rfl, ?_⟩
      simp only [r, queueOf, List.flatMap_cons, Call.run_frame hc, List.nil_append]
    · obtain ⟨rfl, -⟩ := List.cons.inj hsplit
      exact absurd hf (hpre f (by simp))

/-- In a run of calls that wait, call `k` takes frame `k`. -/
theorem run_queue {stack : Stack} {calls : List Call} {dev : Device} {frames : List CutFrame}
    (hcalls : ∀ c ∈ calls, c.Waits) {k : ℕ} {st : Step (Pipe Unit)} {f : CutFrame}
    (hst : (run (Pipe.host stack silent) calls dev (queueOf frames))[k]? = some st) (hf : frames[k]? = some f) :
    st.call.Waits ∧ st.reply.state = queueOf (frames.drop (k + 1)) ∧
      (st.reply.ret, st.reply.out) = st.call.accept st.before f.header f.bytes := by
  induction frames generalizing calls dev k with
  | nil => simp at hf
  | cons g gs ih =>
    rcases calls with _ | ⟨c, cs⟩
    · cases hst
    have hc := hcalls c (by simp)
    have hreply := Call.step_reply (Pipe.host stack silent) dev (queueOf (g :: gs)) c
    rw [show queueOf (g :: gs) = ⟨g.events ++ gs.flatMap CutFrame.events, ()⟩ from rfl, Call.run_frame hc] at hreply
    rw [run_cons] at hst
    cases k with
    | zero =>
      obtain rfl : c.step _ _ _ = st := by simpa using hst
      obtain rfl : g = f := by simpa using hf
      refine ⟨hc, ?_, ?_⟩
      · exact congrArg Reply.state hreply
      · exact Prod.ext (congrArg Reply.ret hreply) (congrArg Reply.out hreply)
    | succ k =>
      have hstate : (c.step (Pipe.host stack silent) dev (queueOf (g :: gs))).reply.state = queueOf gs :=
        congrArg Reply.state hreply
      rw [hstate] at hst
      exact ih (fun c' hc' => hcalls c' (List.mem_cons_of_mem c hc')) (by simpa using hst) (by simpa using hf)

/-- **Frames are taken in order.** In a run of calls that wait, each takes
exactly the frame that is first then. If it is addressed to the call, the
call returns what it returns on any queue with that first frame; if not, it
returns ERR_PROTO with the caller's objects as they were, and the frame is
gone. So one call is undisturbed by the others' frames exactly when its own
is first. -/
theorem pending_in_order (stack : Stack) (dev : Device) :
    (∀ (calls : List Call) (frames : List CutFrame), (∀ c ∈ calls, c.Waits) → ∀ k st f,
      (run (Pipe.host stack silent) calls dev (queueOf frames))[k]? = some st → frames[k]? = some f →
        st.reply.state = queueOf (frames.drop (k + 1)) ∧
        (st.call.Addressed st.before f.header → ∀ others,
          let r := st.call.run (Pipe.host stack silent) st.before (queueOf (f :: others))
          st.reply.ret = r.ret ∧ st.reply.out = r.out) ∧
        (¬st.call.Addressed st.before f.header → st.reply.ret = .errProto ∧ st.reply.out = st.call.out)) ∧
    ∀ (c : Call) (frames : List CutFrame), c.Waits → (∃ f ∈ frames, c.Addressed dev f.header) →
      (Undisturbed stack dev c frames ↔ ∃ f fs, frames = f :: fs ∧ c.Addressed dev f.header) := by
  refine ⟨?_, fun c frames hc hmem => undisturbed_iff hc stack dev hmem⟩
  intro calls frames hcalls k st f hst hf
  obtain ⟨hwaits, hstate, hverdict⟩ := run_queue hcalls hst hf
  obtain ⟨hret, hout⟩ := Prod.mk.inj (hverdict.trans Prod.mk.eta.symm)
  refine ⟨hstate, fun _ others => ?_, fun hno => ?_⟩
  · simp only [queueOf, List.flatMap_cons, Call.run_frame hwaits]
    exact ⟨hret, hout⟩
  · rw [Call.accept_of_not_addressed hwaits hno] at hret hout
    exact ⟨hret, hout⟩

/-- An advertising event, and the answer to the first request. -/
def eventFrame : CutFrame :=
  (Frame.build { Header.zero with chType := ChannelType.bleMgmt.code, msgType := MsgType.evt.code } [] nil_fits).whole
    (Frame.build_le (by decide))

def answerFrame : CutFrame :=
  (Frame.build { Header.zero with
    refSeq := 1, chType := ChannelType.bleMgmt.code, msgType := MsgType.rsp.code, opcode := BLE_SCAN_STOP } []
    nil_fits).whole (Frame.build_le (by decide))

def scanStop : Call := .bleTransact BLE_SCAN_STOP none 0 none 0 none

def readEvent : Call := .bleReadEvent ⟨some Header.zero, none, some 0⟩ 0

/-- Behind the event the answer is taken by the call that waits for the event:
both fail, and nothing is pending. Read first, the event leaves the answer to
SCAN_STOP. -/
theorem pending_in_order_event :
    (run (Pipe.host Stack.zero silent) [scanStop, readEvent] freshDevice (queueOf [eventFrame, answerFrame])).map
      (fun st => (st.reply.ret, st.reply.state)) = [(.errProto, queueOf [answerFrame]), (.errProto, queueOf [])] ∧
    ¬Undisturbed Stack.zero freshDevice scanStop [eventFrame, answerFrame] ∧
    Undisturbed Stack.zero freshDevice readEvent [eventFrame, answerFrame] := by
  obtain ⟨hrun, hund⟩ := pending_in_order Stack.zero freshDevice
  have hframes := hrun [scanStop, readEvent] [eventFrame, answerFrame] (by decide)
  obtain ⟨hstate₀, -, hno₀⟩ := hframes 0 _ eventFrame rfl rfl
  obtain ⟨hstate₁, -, hno₁⟩ := hframes 1 _ answerFrame rfl rfl
  refine ⟨?_, ?_, ?_⟩
  · exact congrArg₂ (fun p q => [p, q]) (Prod.ext (hno₀ (by decide +kernel)).1 hstate₀)
      (Prod.ext (hno₁ (by decide +kernel)).1 hstate₁)
  · rw [hund scanStop [eventFrame, answerFrame] (by decide) ⟨answerFrame, by simp, by decide +kernel⟩]
    rintro ⟨f, fs, hfs, hf⟩
    obtain ⟨rfl, -⟩ := List.cons.inj hfs
    exact absurd hf (by decide +kernel)
  · exact (hund readEvent [eventFrame, answerFrame] (by decide) ⟨eventFrame, by simp, by decide +kernel⟩).mpr
      ⟨eventFrame, [answerFrame], rfl, by decide +kernel⟩

/-- The event is pending before the answer to SCAN_STOP. -/
theorem event_disturbs :
    ¬∀ (stack : Stack) (dev : Device) (c : Call) (frames : List CutFrame), c.Waits →
      (∃ f ∈ frames, c.Addressed dev f.header) → Undisturbed stack dev c frames := by
  intro hall
  have hund := hall Stack.zero freshDevice scanStop [eventFrame, answerFrame] (by decide)
    ⟨answerFrame, by simp, by decide +kernel⟩
  have hret := (hund [eventFrame] answerFrame [] rfl (by decide +kernel) (by decide +kernel)).1
  exact absurd hret (by decide +kernel)

end UsbMux
