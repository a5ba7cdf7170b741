/-
# Hosts that look alike

If a map between the states of two hosts keeps what every transfer returns,
every function of the driver returns the same on both, and leaves states that
the map relates (`Host.Sim`). The log of a logged host is such a difference:
forgetting it changes nothing (`Call.step_reply`).

Key definition: `Host.Sim`.
Key theorems: `readLoop_sim`, `writeLoop_sim`, `Call.run_sim`,
`Call.step_reply`.
-/
import UsbMux.Calls

namespace UsbMux

variable {σ τ : Type}

/-- `π` takes the runs of `host` to runs of `host'` with the same outcomes. -/
structure Host.Sim (π : σ → τ) (host : Host σ) (host' : Host τ) : Prop where
  bulkIn : ∀ t n s, host'.bulkIn t n (π s) = ((host.bulkIn t n s).1, π (host.bulkIn t n s).2)
  bulkOut : ∀ t chunk s, host'.bulkOut t chunk (π s) = ((host.bulkOut t chunk s).1, π (host.bulkOut t chunk s).2)
  stack : ∀ s n, host'.stack (π s) n = host.stack s n

theorem Host.logged_sim (host : Host σ) : Host.Sim Prod.fst host.logged host where
  bulkIn _ _ _ := rfl
  bulkOut _ _ _ := rfl
  stack _ _ := rfl

variable {π : σ → τ} {host : Host σ} {host' : Host τ}

def FrameRead.map (π : σ → τ) (r : FrameRead σ) : FrameRead τ := ⟨r.ret, r.frame, r.frameLen, π r.state⟩

theorem readLoop_sim (h : host.Sim π host') (dev : Device) (cap offset targetLen : ℕ) (frame : Bytes) (s : σ) :
    readLoop host' dev cap offset targetLen frame (π s) =
      (readLoop host dev cap offset targetLen frame s).map π := by
  fun_induction readLoop host dev cap offset targetLen frame s with
  | case1 offset targetLen frame s hlt capacity hc =>
    rw [readLoop, if_pos hlt]
    exact if_pos hc
  | case2 offset targetLen frame s hlt capacity hc x s₁ hx frame₁ hret =>
    rw [readLoop_round hlt hc ((h.bulkIn ..).trans (by rw [hx])), if_pos hret]
    rfl
  | case3 offset targetLen frame s hlt capacity hc x s₁ hx frame₁ hret hdata =>
    rw [readLoop_round hlt hc ((h.bulkIn ..).trans (by rw [hx])), if_neg hret, if_pos hdata]
    rfl
  | case4 offset targetLen frame s hlt capacity hc x s₁ hx frame₁ hret hdata offset₁ htgt ret hdec =>
    rw [readLoop_round hlt hc ((h.bulkIn ..).trans (by rw [hx])), if_neg hret, if_neg hdata, if_pos htgt,
      show decodeHeader (Buffer.writeAt frame offset x.data) (offset + x.data.length) = _ from hdec]
    rfl
  | case5 offset targetLen frame s hlt capacity hc x s₁ hx frame₁ hret hdata offset₁ htgt header hdec hbig =>
    rw [readLoop_round hlt hc ((h.bulkIn ..).trans (by rw [hx])), if_neg hret, if_neg hdata, if_pos htgt,
      show decodeHeader (Buffer.writeAt frame offset x.data) (offset + x.data.length) = _ from hdec]
    exact if_pos hbig
  | case6 offset targetLen frame s hlt capacity hc x s₁ hx frame₁ hret hdata offset₁ htgt header hdec hbig ih =>
    rw [readLoop_round hlt hc ((h.bulkIn ..).trans (by rw [hx])), if_neg hret, if_neg hdata, if_pos htgt,
      show decodeHeader (Buffer.writeAt frame offset x.data) (offset + x.data.length) = _ from hdec]
    exact (if_neg hbig).trans ih
  | case7 offset targetLen frame s hlt capacity hc x s₁ hx frame₁ hret hdata offset₁ htgt ih =>
    rw [readLoop_round hlt hc ((h.bulkIn ..).trans (by rw [hx])), if_neg hret, if_neg hdata, if_neg htgt]
    exact ih
  | case8 offset targetLen frame s hlt =>
    rw [readLoop, if_neg hlt]
    rfl

theorem writeLoop_sim (h : host.Sim π host') (dev : Device) (frame : Bytes) (frameLen offset : ℕ) (s : σ) :
    writeLoop host' dev frame frameLen offset (π s) =
      ((writeLoop host dev frame frameLen offset s).1, π (writeLoop host dev frame frameLen offset s).2) := by
  fun_induction writeLoop host dev frame frameLen offset s with
  | case1 offset s hlt chunk x s₁ hx hret =>
    have hx' := (h.bulkOut dev.timeoutMs chunk s).trans (by rw [hx])
    rw [writeLoop, if_pos hlt]
    simp only [chunk] at hx'
    simp only [hx', if_pos hret]
  | case2 offset s hlt chunk x s₁ hx hret hzero =>
    have hx' := (h.bulkOut dev.timeoutMs chunk s).trans (by rw [hx])
    rw [writeLoop, if_pos hlt]
    simp only [chunk] at hx'
    simp only [hx', if_neg hret, if_pos hzero]
  | case3 offset s hlt chunk x s₁ hx hret hzero ih =>
    have hx' := (h.bulkOut dev.timeoutMs chunk s).trans (by rw [hx])
    rw [writeLoop, if_pos hlt]
    simp only [chunk] at hx'
    simp only [hx', if_neg hret, if_neg hzero, ih]
  | case4 offset s hlt =>
    rw [writeLoop, if_neg hlt]

theorem writeFrame_sim (h : host.Sim π host') (dev : Device) (frame : Bytes) (frameLen : ℕ) (s : σ) :
    writeFrame host' dev frame frameLen (π s) =
      ((writeFrame host dev frame frameLen s).1, π (writeFrame host dev frame frameLen s).2) := by
  unfold writeFrame
  split
  · rfl
  · exact writeLoop_sim h dev frame frameLen 0 s

theorem receive_sim (h : host.Sim π host') (dev : Device) (accept : Header → Bytes → Out → Result × Out) (out : Out)
    (s : σ) : receive host' dev accept out (π s) =
      ((receive host dev accept out s).1, (receive host dev accept out s).2.1,
        π (receive host dev accept out s).2.2) := by
  have hread : readFrame host' dev (host'.stack (π s) MAX_FRAME_LEN) MAX_FRAME_LEN 0 (π s) =
      (readFrame host dev (host.stack s MAX_FRAME_LEN) MAX_FRAME_LEN 0 s).map π := by
    rw [h.stack]
    exact readLoop_sim h dev _ _ _ _ s
  simp only [receive, hread, FrameRead.map]
  split
  · rfl
  · split <;> rfl

theorem transact_sim (h : host.Sim π host') (dev : Device) (chType chId msgType opcode : UInt8)
    (payload : Option Bytes) (payloadLen : ℕ) (out : Out) (rspCapacity : ℕ) (s : σ) :
    let r := transact host dev chType chId msgType opcode payload payloadLen out rspCapacity s
    transact host' dev chType chId msgType opcode payload payloadLen out rspCapacity (π s) =
      ⟨r.ret, r.out, r.dev, π r.state⟩ := by
  simp only [transact, h.stack, writeFrame_sim h, receive_sim h]
  split
  · rfl
  · split <;> rfl

/-- **Every call returns the same on both hosts.** -/
theorem Call.run_sim (h : host.Sim π host') (dev : Device) (s : σ) (c : Call) :
    let r := c.run host dev s
    c.run host' dev (π s) = ⟨r.ret, r.out, r.dev, π r.state⟩ := by
  cases c with
  | transact chType chId msgType opcode payload payloadLen out cap => exact transact_sim h ..
  | bleTransact opcode payload payloadLen rspPayload cap rspLen => exact transact_sim h ..
  | uartWrite port data len =>
    simp only [Call.run, UsbMux.uartWrite, h.stack, writeFrame_sim h]
    split
    · rfl
    · split <;> rfl
  | uartRead port data cap len =>
    simp only [Call.run, UsbMux.uartRead, receive_sim h]
    split <;> rfl
  | bleReadEvent out cap =>
    simp only [Call.run, UsbMux.bleReadEvent, receive_sim h]
    split <;> rfl
  | nextSeq => rfl

/-- The log changes nothing. -/
theorem Call.step_reply (host : Host σ) (dev : Device) (s : σ) (c : Call) :
    (c.step host dev s).reply = c.run host dev s :=
  (Call.run_sim host.logged_sim dev (s, []) c).symm

/-- The results of a run. -/
def results (steps : List (Step σ)) : List Result := steps.map (·.reply.ret)

theorem results_cons (host : Host σ) (c : Call) (cs : List Call) (dev : Device) (s : σ) :
    results (run host (c :: cs) dev s) =
      (c.run host dev s).ret :: results (run host cs (c.run host dev s).dev (c.run host dev s).state) := by
  unfold results
  rw [run_cons, List.map_cons, Call.step_reply]

end UsbMux
