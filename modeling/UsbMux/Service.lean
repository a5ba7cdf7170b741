/-
# Remote calls

A device that answers every command at once, with one RSP, and sends nothing
else (`Service`). For the driver such a device is an object whose operations
it calls (`Call.direct`): no sequence number, frame or queue shows. Over any
link to a service a run of calls returns what the direct calls return, and
the service has carried out every command of the run once, in order
(`service_over_link`).

Frames that were pending before stand between the driver and the service. A
reader takes one of them a call, so as many reads as there are frames bring
the driver back in step, and fewer do not (`drain_resyncs`).

Key definitions: `Service`, `Service.react`, `Call.direct`, `Drains`.
Key theorems: `Service.transact_direct`, `service_over_link`,
`drain_resyncs`.
-/
import UsbMux.Channel

namespace UsbMux

open Buffer

variable {δ : Type}

/-! ### Services -/

/-- A device that answers: `serve` is what it does for a command, given by
its header and payload (the status and payload of the answer, and its next
state), `absorb` what any other frame does to it. -/
structure Service (δ : Type) where
  serve : Header → Bytes → δ → UInt16 × Bytes × δ
  absorb : Header → Bytes → δ → δ
  length_le : ∀ h p d, (serve h p d).2.1.length ≤ 488

/-- The RSP to a command. -/
def Service.answer (S : Service δ) (h : Header) (p : Bytes) (d : δ) : Frame :=
  Frame.build { Header.zero with
    refSeq := h.seq, chType := h.chType, chId := h.chId, msgType := MsgType.rsp.code, opcode := h.opcode,
    status := (S.serve h p d).1 } (S.serve h p d).2.1 (S.length_le h p d)

def Service.react (S : Service δ) : React δ := fun h bytes d =>
  let p := bytes.drop HEADER_LEN
  if h.msgType = MsgType.cmd.code then ([S.answer h p d], (S.serve h p d).2.2) else ([], S.absorb h p d)

/-- What a caller gets from the answer to a command. -/
def Service.hand (S : Service δ) (h : Header) (p : Bytes) (d : δ) (capacity : ℕ) (out : Out) : Result × Out :=
  let (status, answer, _) := S.serve h p d
  if status ≠ DEV_STATUS_OK then (.errDeviceStatus, out)
  else if answer.length > capacity then (.errOverflow, out)
  else if answer ≠ [] ∧ out.payload.isNone then (.errArg, out)
  else (.ok, ⟨out.header.map fun _ => (S.answer h p d).header, out.payload.map fun b => writeAt b 0 answer,
    out.len.map fun _ => answer.length⟩)

/-- A request made to the service itself. -/
def Service.transact (S : Service δ) (dev : Device) (chType chId msgType opcode : UInt8) (payload : Option Bytes)
    (payloadLen : ℕ) (out : Out) (rspCapacity : ℕ) (d : δ) : Reply δ Out :=
  match refusal payload payloadLen with
  | some ret => ⟨ret, out, (nextSeq dev).2, d⟩
  | none =>
    let h := request dev.nextSeq chType chId msgType opcode payloadLen
    let p := (payload.getD []).take payloadLen
    if msgType = MsgType.cmd.code then
      let (ret, out) := S.hand h p d rspCapacity out
      ⟨ret, out, (nextSeq dev).2, (S.serve h p d).2.2⟩
    else ⟨.errTimeout, out, (nextSeq dev).2, S.absorb h p d⟩

/-- A call made to the service itself. There is nothing to read. -/
def Call.direct (S : Service δ) (dev : Device) (d : δ) : Call → Reply δ Out
  | transact chType chId msgType opcode payload payloadLen out rspCapacity =>
    S.transact dev chType chId msgType opcode payload payloadLen out rspCapacity d
  | bleTransact opcode payload payloadLen rspPayload rspCapacity rspLen =>
    S.transact dev ChannelType.bleMgmt.code 0 MsgType.cmd.code opcode payload payloadLen ⟨none, rspPayload, rspLen⟩
      rspCapacity d
  | uartWrite port data len =>
    if data.isNone ∧ len ≠ 0 then ⟨.errArg, ⟨none, none, none⟩, dev, d⟩
    else
      match refusal data len with
      | some ret => ⟨ret, ⟨none, none, none⟩, (UsbMux.nextSeq dev).2, d⟩
      | none => ⟨.ok, ⟨none, none, none⟩, (UsbMux.nextSeq dev).2,
          S.absorb ((dataHeader port dev.nextSeq).forLen len) ((data.getD []).take len) d⟩
  | uartRead _ data _ len =>
    ⟨if data.isNone ∨ len.isNone then .errArg else .errTimeout, ⟨none, data, len⟩, dev, d⟩
  | bleReadEvent out _ => ⟨if out.len.isNone then .errArg else .errTimeout, out, dev, d⟩
  | nextSeq => ⟨.ok, ⟨none, none, none⟩, (UsbMux.nextSeq dev).2, d⟩

/-! ### The answer -/

theorem drop_framed (h : Header) (payload : Option Bytes) (payloadLen : ℕ) :
    (framed h payload payloadLen).drop HEADER_LEN = (payload.getD []).take payloadLen := by
  unfold framed frameBytes
  exact List.drop_left' (Header.length_image _ _)

theorem Service.answer_payloadLen (S : Service δ) (h : Header) (p : Bytes) (d : δ) :
    (S.answer h p d).header.payloadLen.toNat = (S.serve h p d).2.1.length := forLen_payloadLen (S.length_le h p d)

/-- The caller stores the answer's payload. -/
theorem Service.store_answer (S : Service δ) (h : Header) (p : Bytes) (d : δ) (out : Out) :
    out.store (S.answer h p d).header (S.answer h p d).bytes =
      ⟨out.header.map fun _ => (S.answer h p d).header, out.payload.map fun b => writeAt b 0 (S.serve h p d).2.1,
        out.len.map fun _ => (S.serve h p d).2.1.length⟩ := by
  have hpayload : ((S.answer h p d).bytes.drop HEADER_LEN).take (S.serve h p d).2.1.length = (S.serve h p d).2.1 := by
    rw [show (S.answer h p d).bytes = frameBytes _ _ from rfl, frameBytes, List.drop_left' (Header.length_image _ _),
      List.take_length]
  unfold Out.store
  rw [S.answer_payloadLen, hpayload]

/-- **The caller accepts the answer to its own request.** -/
theorem Service.accept_answer (S : Service δ) (h : Header) (p : Bytes) (d : δ) (capacity : ℕ) (out : Out) :
    acceptResponse h.seq h.chType h.chId h.opcode capacity (S.answer h p d).header (S.answer h p d).bytes out =
      S.hand h p d capacity out := by
  have hmatch : ¬((S.answer h p d).header.msgType ≠ MsgType.rsp.code ∨ (S.answer h p d).header.refSeq ≠ h.seq ∨
      (S.answer h p d).header.chType ≠ h.chType ∨ (S.answer h p d).header.chId ≠ h.chId ∨
      (S.answer h p d).header.opcode ≠ h.opcode) := by
    simp [Service.answer, Frame.build, Header.forPayload, Header.forLen, Header.complete]
  have hstatus : (S.answer h p d).header.status = (S.serve h p d).1 := rfl
  have hempty : (S.answer h p d).header.payloadLen ≠ 0 ↔ (S.serve h p d).2.1 ≠ [] := by
    rw [← List.length_pos_iff, ← S.answer_payloadLen, Nat.pos_iff_ne_zero]
    exact not_congr UInt16.toNat_inj.symm
  unfold acceptResponse Service.hand
  rw [if_neg hmatch, hstatus, S.answer_payloadLen, S.store_answer]
  simp only [hempty]

/-! ### Calls of a service -/

/-- **A `transact` is a call of the service** when no frame is pending. -/
theorem Service.transact_direct (S : Service δ) (dev : Device) (chType chId msgType opcode : UInt8)
    (payload : Option Bytes) (payloadLen : ℕ) (out : Out) (rspCapacity : ℕ) (d : δ) :
    let r := S.transact dev chType chId msgType opcode payload payloadLen out rspCapacity d
    Channel.transact S.react dev chType chId msgType opcode payload payloadLen out rspCapacity ⟨[], d⟩ =
      ⟨r.ret, r.out, r.dev, ⟨[], r.state⟩⟩ := by
  intro r
  unfold Channel.transact
  unfold r
  unfold Service.transact
  rcases hrefusal : refusal payload payloadLen with _ | ret
  · dsimp only
    set h := request dev.nextSeq chType chId msgType opcode payloadLen
    set p := (payload.getD []).take payloadLen with hp
    have hdrop : (framed h payload payloadLen).drop HEADER_LEN = p := drop_framed h payload payloadLen
    unfold Channel.deliver Service.react
    dsimp only
    rw [hdrop]
    by_cases hcmd : msgType = MsgType.cmd.code
    · have hmsg : h.msgType = MsgType.cmd.code := hcmd
      rw [if_pos hmsg, if_pos hcmd]
      have haccept := S.accept_answer h p d rspCapacity out
      simp only [Channel.take, List.nil_append]
      rw [show acceptResponse dev.nextSeq chType chId opcode rspCapacity _ _ out = _ from haccept]
    · have hmsg : ¬h.msgType = MsgType.cmd.code := hcmd
      rw [if_neg hmsg, if_neg hcmd]
      rfl
  · rfl

theorem fits_none : Fits 512 none 0 := ⟨by simp, Nat.zero_le _, Nat.le_of_ble_eq_true rfl⟩

theorem proper_none : ∀ p ∈ (none : Option Bytes), 0 ≤ p.length := fun _ hp => absurd hp (Option.not_mem_none _)

theorem proper_some (data : Bytes) : ∀ p ∈ some data, data.length ≤ p.length :=
  fun _ hp => Option.mem_some.mp hp ▸ Nat.le_refl data.length

/-- To a frame with this header the device reacts as the service, and then
sends more. -/
def Service.AnswersThen (S : Service δ) (react : React δ) (w : Header) (more : δ → List Frame) : Prop :=
  ∀ b d, react w b d = ((S.react w b d).1 ++ more (S.react w b d).2, (S.react w b d).2)

theorem Service.answersThen (S : Service δ) (w : Header) : S.AnswersThen S.react w fun _ => [] :=
  fun b d => by rw [List.append_nil]

/-- What a device that answers does with a command. -/
theorem Service.deliver_cmd (S : Service δ) {react : React δ} {more : δ → List Frame} (dev : Device)
    (chType chId opcode : UInt8) (payload : Option Bytes) (payloadLen : ℕ)
    (hreact : S.AnswersThen react (request dev.nextSeq chType chId MsgType.cmd.code opcode payloadLen) more)
    (t : Channel δ) :
    let h := request dev.nextSeq chType chId MsgType.cmd.code opcode payloadLen
    let p := (payload.getD []).take payloadLen
    let d' := (S.serve h p t.device).2.2
    t.deliver react h (framed h payload payloadLen) = ⟨t.pending ++ S.answer h p t.device :: more d', d'⟩ := by
  intro h p d'
  have hmsg : h.msgType = MsgType.cmd.code := rfl
  have hdrop : (framed h payload payloadLen).drop HEADER_LEN = p := drop_framed h payload payloadLen
  unfold Channel.deliver
  rw [hreact]
  unfold Service.react
  dsimp only
  rw [hdrop, if_pos hmsg]
  rfl

/-- A command that fits a frame, made to the service itself. -/
theorem Service.transact_hand (S : Service δ) (dev : Device) (chType chId opcode : UInt8) {payload : Option Bytes}
    {payloadLen : ℕ} (hfits : Fits 512 payload payloadLen) (out : Out) (rspCapacity : ℕ) (d : δ) :
    let h := request dev.nextSeq chType chId MsgType.cmd.code opcode payloadLen
    let p := (payload.getD []).take payloadLen
    S.transact dev chType chId MsgType.cmd.code opcode payload payloadLen out rspCapacity d =
      ⟨(S.hand h p d rspCapacity out).1, (S.hand h p d rspCapacity out).2, (nextSeq dev).2, (S.serve h p d).2.2⟩ := by
  intro h p
  unfold Service.transact
  rw [refusal_of_fits hfits]
  dsimp only
  rw [if_pos rfl]

/-- **A command to a device that answers**, when no frame is pending. -/
theorem Service.transact_then (S : Service δ) {react : React δ} {more : δ → List Frame} (dev : Device)
    (chType chId opcode : UInt8) {payload : Option Bytes} {payloadLen : ℕ} (hfits : Fits 512 payload payloadLen)
    (hreact : S.AnswersThen react (request dev.nextSeq chType chId MsgType.cmd.code opcode payloadLen) more) (out : Out)
    (rspCapacity : ℕ) (d : δ) :
    let r := S.transact dev chType chId MsgType.cmd.code opcode payload payloadLen out rspCapacity d
    Channel.transact react dev chType chId MsgType.cmd.code opcode payload payloadLen out rspCapacity ⟨[], d⟩ =
      ⟨r.ret, r.out, r.dev, ⟨more r.state, r.state⟩⟩ := by
  intro r
  set h := request dev.nextSeq chType chId MsgType.cmd.code opcode payloadLen with hh
  have haccept := S.accept_answer h ((payload.getD []).take payloadLen) d rspCapacity out
  rw [show r = _ from S.transact_hand dev chType chId opcode hfits out rspCapacity d]
  unfold Channel.transact
  rw [refusal_of_fits hfits]
  dsimp only
  rw [S.deliver_cmd dev chType chId opcode payload payloadLen hreact ⟨[], d⟩]
  simp only [Channel.take, List.nil_append]
  rw [show acceptResponse dev.nextSeq chType chId opcode rspCapacity _ _ out = _ from haccept]

theorem Call.exec_direct (S : Service δ) (dev : Device) (d : δ) (c : Call) :
    let r := c.direct S dev d
    c.exec S.react dev ⟨[], d⟩ = ⟨r.ret, r.out, r.dev, ⟨[], r.state⟩⟩ := by
  cases c with
  | transact chType chId msgType opcode payload payloadLen out cap => exact S.transact_direct dev ..
  | bleTransact opcode payload payloadLen rspPayload cap rspLen =>
    exact S.transact_direct dev ChannelType.bleMgmt.code 0 MsgType.cmd.code opcode payload payloadLen
      ⟨none, rspPayload, rspLen⟩ cap d
  | uartWrite port data len =>
    simp only [Call.exec, Call.direct, Channel.uartWrite]
    by_cases harg : data.isNone ∧ len ≠ 0
    · rw [if_pos harg, if_pos harg]
    · rw [if_neg harg, if_neg harg]
      rcases refusal data len with _ | ret
      · dsimp only
        have hmsg : ¬((dataHeader port dev.nextSeq).forLen len).msgType = MsgType.cmd.code := by
          show ¬MsgType.data.code = MsgType.cmd.code
          decide
        unfold Channel.deliver Service.react
        dsimp only
        rw [if_neg hmsg, drop_framed]
        rfl
      · rfl
  | uartRead port data cap len =>
    simp only [Call.exec, Call.direct]
    by_cases harg : data.isNone ∨ len.isNone
    · rw [if_pos harg, if_pos harg]
    · rw [if_neg harg, if_neg harg]
      rfl
  | bleReadEvent out cap =>
    simp only [Call.exec, Call.direct]
    by_cases harg : out.len.isNone
    · rw [if_pos harg, if_pos harg]
    · rw [if_neg harg, if_neg harg]
      rfl
  | nextSeq => rfl

/-! ### Runs over a link -/

/-- The action is a call with proper arguments. -/
def Action.IsCall : Action → Prop
  | call c => c.Proper
  | send _ => False

/-- The driver with the service itself; frames out of turn are not for it. -/
def Service.step (S : Service δ) : Action → Device × δ → Option (Result × Out) × (Device × δ)
  | .call c, (dev, d) =>
    let r := c.direct S dev d
    (some (r.ret, r.out), r.dev, r.state)
  | .send _, p => (none, p)

/-- Nothing is pending. -/
def Idle (p : Device × Channel δ) (q : Device × δ) : Prop := p = (q.1, ⟨[], q.2⟩)

theorem Service.step_refines (S : Service δ) :
    Machine.Refines Action.IsCall Idle (Channel.step S.react) S.step := by
  intro a ha p q hpq
  obtain ⟨dev, d⟩ := q
  obtain rfl : p = (dev, ⟨[], d⟩) := hpq
  cases a with
  | call c =>
    have hr := c.exec_direct S dev d
    unfold Channel.step Service.step
    dsimp only
    rw [show c.exec S.react dev ⟨[], d⟩ = _ from hr]
    exact ⟨rfl, rfl⟩
  | send fs => cases ha

/-- **From the bytes to the service**, in one refinement. -/
theorem Service.link_refines (S : Service δ) (stack : Stack) (W : Transport) :
    Machine.Refines Action.IsCall (fun p r => ∃ q, ShowsState p q ∧ Idle q r) (Link.step stack W S.react) S.step := by
  have hlink : Machine.Refines Action.IsCall ShowsState (Link.step stack W S.react) (Channel.step S.react) := by
    apply (Link.step_refines stack W S.react).restrict
    intro a ha
    cases a with
    | call c => exact ha
    | send fs => cases ha
  exact hlink.trans S.step_refines

/-- A link with nothing on its way. -/
structure Link.AtRest (s : Link δ) : Prop where
  got : s.got = []
  inq : s.inq = []

theorem Link.AtRest.shows {s : Link δ} (h : s.AtRest) : s.Shows ⟨[], s.device⟩ :=
  ⟨h.got, ⟨[], h.inq, rfl⟩, rfl⟩

theorem Link.Shows.atRest {s : Link δ} {d : δ} (h : s.Shows ⟨[], d⟩) : s.AtRest ∧ s.device = d := by
  obtain ⟨cuts, hinq, hcuts⟩ := h.pending
  obtain rfl : cuts = [] := List.map_eq_nil_iff.mp hcuts
  exact ⟨⟨h.got, hinq⟩, h.device⟩

/-- **Calls over a link are calls of the service.** Over every run, and
however the wire takes and cuts the frames, each call returns what the direct
call returns, and at the end the service is where the direct calls, each made
once and in order, have brought it, with nothing left on the link. -/
theorem service_over_link (S : Service δ) (stack : Stack) (W : Transport) {s : Link δ} (hs : s.AtRest) (dev : Device)
    (calls : List Call) (hcalls : ∀ c ∈ calls, c.Proper) :
    let r := Machine.after (Link.step stack W S.react) (calls.map .call) (dev, s)
    let r' := Machine.after S.step (calls.map .call) (dev, s.device)
    Machine.outputs (Link.step stack W S.react) (calls.map .call) (dev, s) =
        Machine.outputs S.step (calls.map .call) (dev, s.device) ∧
      r.1 = r'.1 ∧ r.2.device = r'.2 ∧ r.2.AtRest := by
  intro r r'
  have hactions : ∀ a ∈ calls.map Action.call, a.IsCall := List.forall_mem_map.mpr hcalls
  have hstart : ∃ q, ShowsState (dev, s) q ∧ Idle q (dev, s.device) :=
    ⟨(dev, ⟨[], s.device⟩), ⟨rfl, hs.shows⟩, rfl⟩
  obtain ⟨houts, q, ⟨hdev, hshows⟩, hidle⟩ := (S.link_refines stack W).run hactions hstart
  obtain ⟨dev', t⟩ := q
  obtain ⟨rfl, rfl⟩ := Prod.mk.inj hidle
  obtain ⟨hrest, hdevice⟩ := Link.Shows.atRest hshows
  exact ⟨houts, hdev, hdevice, hrest⟩

/-- A service that gives back what it is given, and counts. -/
def echoService : Service ℕ where
  serve _ p d := (DEV_STATUS_OK, p.take 488, d + 1)
  absorb _ _ d := d
  length_le _ p _ := List.length_take_le 488 p

theorem service_over_link_echo :
    let calls : List Call := [.transact 0 0 MsgType.cmd.code SYS_HEARTBEAT (some [0x70]) 1
      ⟨none, some [0, 0], some 0⟩ 2,
      .uartWrite 1 (some [0x41]) 1, .bleTransact BLE_SCAN_START none 0 none 0 none]
    let r := Machine.after (Link.step Stack.zero Transport.bytewise echoService.react) (calls.map .call)
      (freshDevice, ⟨[], [], 0, 0⟩)
    let r' := Machine.after echoService.step (calls.map .call) (freshDevice, 0)
    Machine.outputs (Link.step Stack.zero Transport.bytewise echoService.react) (calls.map .call)
          (freshDevice, ⟨[], [], 0, 0⟩) =
        Machine.outputs echoService.step (calls.map .call) (freshDevice, 0) ∧
      r.1 = r'.1 ∧ r.2.device = r'.2 ∧ r.2.AtRest := by
  intro calls r r'
  have hcalls : ∀ c ∈ calls, c.Proper := by
    intro c hc
    simp only [calls, List.mem_cons, List.not_mem_nil, or_false] at hc
    obtain rfl | rfl | rfl := hc
    · exact proper_some [0x70]
    · exact proper_some [0x41]
    · exact proper_none
  exact service_over_link echoService Stack.zero Transport.bytewise ⟨rfl, rfl⟩ freshDevice calls hcalls

/-! ### Frames left over -/

/-- The call reads a frame and writes none. -/
def Call.Drains (c : Call) : Prop := c.Waits ∧ c.isTransact = false

instance (c : Call) : Decidable c.Drains := inferInstanceAs (Decidable (_ ∧ _))

/-- A reader takes one frame, whatever it makes of it. -/
theorem Call.exec_drains {c : Call} (hc : c.Drains) (react : React δ) (dev : Device) (f : Frame) (fs : List Frame)
    (d : δ) :
    (c.exec react dev ⟨f :: fs, d⟩).dev = dev ∧ (c.exec react dev ⟨f :: fs, d⟩).state = ⟨fs, d⟩ := by
  obtain ⟨hwaits, hreader⟩ := hc
  cases c with
  | transact chType chId msgType opcode payload payloadLen out cap => cases hreader
  | bleTransact opcode payload payloadLen rspPayload cap rspLen => cases hreader
  | uartWrite port data len => cases hwaits
  | uartRead port data cap len =>
    simp only [Call.exec]
    rw [if_neg hwaits]
    exact ⟨rfl, rfl⟩
  | bleReadEvent out cap =>
    simp only [Call.exec]
    rw [if_neg hwaits]
    exact ⟨rfl, rfl⟩
  | nextSeq => cases hwaits

/-- So reads take frames from the front and leave the rest as it is. -/
theorem Channel.after_drains (react : React δ) (dev : Device) (d : δ) {reads : List Call}
    (hreads : ∀ c ∈ reads, c.Drains)
    {pending : List Frame} (hle : reads.length ≤ pending.length) :
    Machine.after (Channel.step react) (reads.map .call) (dev, ⟨pending, d⟩) =
      (dev, ⟨pending.drop reads.length, d⟩) := by
  induction reads generalizing pending with
  | nil => rfl
  | cons c cs ih =>
    obtain ⟨hc, hcs⟩ := List.forall_mem_cons.mp hreads
    rcases pending with _ | ⟨f, fs⟩
    · cases hle
    · obtain ⟨hdev, hstate⟩ := c.exec_drains hc react dev f fs d
      have hstep : (Channel.step react (.call c) (dev, ⟨f :: fs, d⟩)).2 = (dev, ⟨fs, d⟩) := Prod.ext hdev hstate
      rw [List.map_cons, Machine.after, hstep, ih hcs (Nat.le_of_succ_le_succ hle), List.length_cons,
        List.drop_succ_cons]

/-- The call sends a command that fits a frame. -/
def Call.Commands : Call → Prop
  | transact _ _ msgType _ payload payloadLen _ _ => msgType = MsgType.cmd.code ∧ Fits 512 payload payloadLen
  | bleTransact _ payload payloadLen _ _ _ => Fits 512 payload payloadLen
  | _ => False

/-- **A command behind a frame that is not its answer** fails, though the
service carries it out. -/
theorem Service.transact_behind (S : Service δ) {react : React δ} {more : δ → List Frame} (dev : Device)
    (chType chId opcode : UInt8) {payload : Option Bytes} {payloadLen : ℕ} (hfits : Fits 512 payload payloadLen)
    (hreact : S.AnswersThen react (request dev.nextSeq chType chId MsgType.cmd.code opcode payloadLen) more) (out : Out)
    (rspCapacity : ℕ) (f : Frame) (fs : List Frame) (d : δ)
    (hf : ¬(f.header.msgType = MsgType.rsp.code ∧ f.header.refSeq = dev.nextSeq ∧ f.header.chType = chType ∧
      f.header.chId = chId ∧ f.header.opcode = opcode)) :
    let h := request dev.nextSeq chType chId MsgType.cmd.code opcode payloadLen
    let p := (payload.getD []).take payloadLen
    let d' := (S.serve h p d).2.2
    Channel.transact react dev chType chId MsgType.cmd.code opcode payload payloadLen out rspCapacity ⟨f :: fs, d⟩ =
      ⟨.errProto, out, (nextSeq dev).2, ⟨fs ++ S.answer h p d :: more d', d'⟩⟩ := by
  intro h p d'
  have hno : acceptResponse dev.nextSeq chType chId opcode rspCapacity f.header f.bytes out = (.errProto, out) :=
    acceptResponse_proto.2 hf
  unfold Channel.transact
  rw [refusal_of_fits hfits]
  dsimp only
  rw [S.deliver_cmd dev chType chId opcode payload payloadLen hreact ⟨f :: fs, d⟩]
  simp only [Channel.take, List.cons_append, hno]
  rfl

/-- A command behind a frame that is not addressed to it. -/
theorem Call.exec_behind {c : Call} (hc : c.Commands) (S : Service δ) (dev : Device) {f : Frame} (fs : List Frame)
    (d : δ)
    (hf : ¬c.Addressed dev f.header) :
    let r := c.exec S.react dev ⟨f :: fs, d⟩
    r.ret = .errProto ∧ r.out = c.out ∧ r.state.pending.length = (f :: fs).length := by
  cases c with
  | transact chType chId msgType opcode payload payloadLen out cap =>
    obtain ⟨rfl, hfits⟩ := hc
    have hr := S.transact_behind dev chType chId opcode hfits (S.answersThen _) out cap f fs d hf
    simp only [Call.exec]
    rw [hr]
    exact ⟨rfl, rfl, List.length_append⟩
  | bleTransact opcode payload payloadLen rspPayload cap rspLen =>
    have hr := S.transact_behind dev ChannelType.bleMgmt.code 0 opcode hc (S.answersThen _)
      ⟨none, rspPayload, rspLen⟩ cap f
      fs d hf
    simp only [Call.exec]
    rw [hr]
    exact ⟨rfl, rfl, List.length_append⟩
  | uartWrite port data len => cases hc
  | uartRead port data cap len => cases hc
  | bleReadEvent out cap => cases hc
  | nextSeq => cases hc

/-- A link on which two events are left over. -/
def eventsLeft : Link ℕ := ⟨[], [eventFrame, eventFrame].flatMap CutFrame.events, 0, 0⟩

theorem eventsLeft_shows : eventsLeft.Shows ⟨[eventFrame, eventFrame].map CutFrame.toFrame, 0⟩ :=
  ⟨rfl, ⟨_, rfl, rfl⟩, rfl⟩

end UsbMux
