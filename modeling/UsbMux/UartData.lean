/-
# UART data from end to end

`ch32mux_uart_write` against a device that takes what it is offered, if only
a byte a transfer: every call returns OK, and what goes out is one DATA frame
a call under successive numbers (`uartWrite_step`). When such frames come in
again, cut anyhow, `ch32mux_uart_read` on the same port gives the payloads
back, one a call (`uartRead_step`). A payload too long for a frame is refused
before anything is written.

Key definitions: `Host.TakesOut`, `dataFrames`, `Yields`.
Key theorems: `writeLoop_ok`, `uart_end_to_end`.
-/
import UsbMux.Outgoing
import UsbMux.Pending

namespace UsbMux

open Buffer

variable {σ : Type}

/-! ### Writes that go through -/

/-- Every transfer on EP3 OUT succeeds and takes at least one of the bytes
offered. -/
def Host.TakesOut (host : Host σ) : Prop :=
  ∀ t chunk s, chunk ≠ [] →
    (host.bulkOut t chunk s).1.ret = .success ∧ 0 < (host.bulkOut t chunk s).1.transferred

theorem Host.TakesOut.logged {host : Host σ} (h : host.TakesOut) : host.logged.TakesOut :=
  fun t chunk s hne => h t chunk s.1 hne

/-- In the frame there is something to offer. -/
theorem chunk_ne_nil {frame : Bytes} {frameLen offset : ℕ} (hlen : frameLen ≤ frame.length) (hlt : offset < frameLen) :
    (frame.drop offset).take (frameLen - offset) ≠ [] := by
  apply List.length_pos_iff.mp
  rw [List.length_take, List.length_drop]
  omega

/-- The write loop then gets to the end of the frame. -/
theorem writeLoop_ok {host : Host σ} (h : host.TakesOut) (dev : Device) {frame : Bytes} {frameLen : ℕ}
    (hlen : frameLen ≤ frame.length) (offset : ℕ) (s : σ) :
    (writeLoop host dev frame frameLen offset s).1 = .ok := by
  fun_induction writeLoop host dev frame frameLen offset s with
  | case1 offset s hlt chunk x s₁ hx hret =>
    obtain ⟨hsucc, -⟩ := h dev.timeoutMs chunk s (chunk_ne_nil hlen hlt)
    rw [hx] at hsucc
    exact absurd hsucc hret
  | case2 offset s hlt chunk x s₁ hx hret hzero =>
    obtain ⟨-, hpos⟩ := h dev.timeoutMs chunk s (chunk_ne_nil hlen hlt)
    rw [hx] at hpos
    exact absurd hzero hpos.ne'
  | case3 offset s hlt chunk x s₁ hx hret hzero ih => exact ih
  | case4 offset s hlt => rfl

/-! ### DATA frames -/

/-- The header a DATA frame for the port is built from. -/
def dataHeader (port : UInt8) (seq : UInt16) : Header :=
  { Header.zero with
    seq := seq, chType := ChannelType.uartData.code, chId := port, msgType := MsgType.data.code, opcode := 0 }

/-- The DATA frame that carries the payload. -/
def dataFrame (port : UInt8) (seq : UInt16) (payload : Bytes) : Bytes :=
  frameBytes ((dataHeader port seq).forPayload payload) payload

/-- One frame a payload, under the numbers the device draws. -/
def dataFrames (port : UInt8) : Device → List Bytes → List Bytes
  | _, [] => []
  | dev, p :: ps => dataFrame port dev.nextSeq p :: dataFrames port (nextSeq dev).2 ps

/-- A write of data that fits a frame; an empty one may come without a
pointer. -/
def writeOf (port : UInt8) (data : Option Bytes) : Call := .uartWrite port data (data.getD []).length

/-- **A write goes out as its frame.** -/
theorem uartWrite_step {host : Host σ} (hout : host.TakesOut) (port : UInt8) (dev : Device) (s : σ)
    {data : Option Bytes} (hp : (data.getD []).length ≤ 488) :
    let st := (writeOf port data).step host dev s
    st.reply.ret = .ok ∧ st.reply.dev = (nextSeq dev).2 ∧
      accepted st.events = dataFrame port dev.nextSeq (data.getD []) := by
  intro st
  have hfits := fits_data hp
  have hstack : 512 ≤ (host.logged.stack (s, []) 512).length := (host.logged.length_stack (s, []) 512).ge
  have hb : (buildFrame (host.logged.stack (s, []) 512) 512 0 (dataHeader port dev.nextSeq) data
      (data.getD []).length).ret = .ok := (buildFrame_ok hstack).mpr hfits
  have hbytes := buildFrame_eq 0 (dataHeader port dev.nextSeq) hfits hstack
  rw [List.take_length] at hbytes
  have hwrite : (writeFrame host.logged (nextSeq dev).2
      (buildFrame (host.logged.stack (s, []) 512) 512 0 (dataHeader port dev.nextSeq) data (data.getD []).length).dst
      (buildFrame (host.logged.stack (s, []) 512) 512 0 (dataHeader port dev.nextSeq) data
        (data.getD []).length).frameLen
      (s, [])).1 = .ok := by
    unfold writeFrame
    rw [hbytes, if_neg (by simp only [MAX_FRAME_LEN]; omega)]
    apply writeLoop_ok hout.logged
    rw [List.length_append, length_frameBytes]
    exact Nat.le_add_right _ _
  obtain ⟨evs, f, hm, hf, -, hcut, hok⟩ := writeFrame_accepted host.logged (nextSeq dev).2 (s, []) hb
  have hwhole : accepted evs = f.bytes := by
    by_contra hne
    exact hok hwrite (hcut.mpr hne)
  have hframe : f.bytes = dataFrame port dev.nextSeq (data.getD []) := by
    rw [hf, hbytes]
    exact List.take_left' (length_frameBytes _ _)
  have hcases := uartWrite_cases host.logged dev port data (data.getD []).length (s, [])
  rcases hcases with ⟨harg, -⟩ | ⟨-, ⟨hne, -⟩ | ⟨-, hr⟩⟩
  · exact absurd harg hfits.1
  · exact absurd hb hne
  · have hevs : st.events = evs := by
      have hlog := hm.log
      rw [List.nil_append] at hlog
      rw [← hlog]
      exact congrArg (fun r => r.2.2.2) hr
    refine ⟨?_, congrArg (fun r => r.2.1) hr, ?_⟩
    · exact (congrArg (fun r => r.1) hr).trans hwrite
    · rw [hevs, hwhole, hframe]

theorem uartWrite_run {host : Host σ} (hout : host.TakesOut) (port : UInt8) :
    ∀ (datas : List (Option Bytes)) (dev : Device) (s : σ),
    (∀ d ∈ datas, (d.getD []).length ≤ 488) →
    let steps := run host (datas.map (writeOf port)) dev s
    (∀ st ∈ steps, st.reply.ret = .ok) ∧ sent steps = (dataFrames port dev (datas.map (·.getD []))).flatten
  | [], dev, s, _ => ⟨fun st hst => (by cases hst), rfl⟩
  | d :: ds, dev, s, hdatas => by
    obtain ⟨hd, hds⟩ := List.forall_mem_cons.mp hdatas
    obtain ⟨hret, hdev, hacc⟩ := uartWrite_step hout port dev s hd
    rw [List.map_cons, run_cons]
    set st := (writeOf port d).step host dev s
    obtain ⟨hrets, hsent⟩ := uartWrite_run hout port ds st.reply.dev st.reply.state hds
    refine ⟨List.forall_mem_cons.mpr ⟨hret, hrets⟩, ?_⟩
    rw [sent_cons, hacc, hsent, hdev]
    rfl

/-- A payload too long for a frame is refused, and nothing is offered. -/
theorem uartWrite_refused (host : Host σ) (port : UInt8) (dev : Device) (s : σ) (data : Bytes) {len : ℕ}
    (hlen : 488 < len) :
    let st := (Call.uartWrite port (some data) len).step host dev s
    st.reply.ret = .errOverflow ∧ st.events = [] := by
  intro st
  have hb : (buildFrame (host.logged.stack (s, []) 512) 512 0 (dataHeader port dev.nextSeq) (some data) len).ret =
      .errOverflow := by
    unfold buildFrame
    rw [if_neg (by simp), if_pos (by simp only [MAX_FRAME_LEN, HEADER_LEN]; omega)]
  rcases uartWrite_cases host.logged dev port (some data) len (s, []) with ⟨⟨harg, -⟩, -⟩ | ⟨-, ⟨-, hr⟩ | ⟨hok, -⟩⟩
  · cases harg
  · exact ⟨(congrArg (fun r => r.1) hr).trans hb, congrArg (fun r => r.2.2.2) hr⟩
  · cases hb.symm.trans hok

/-! ### Reads -/

/-- The call handed over the payload `p`: OK, its length and its bytes. -/
def Yields (p : Bytes) (st : Step σ) : Prop :=
  st.reply.ret = .ok ∧ st.reply.out.len = some p.length ∧ st.reply.out.payload.map (·.take p.length) = some p

/-- A read with a buffer of its own. -/
def readOf (port : UInt8) (r : Bytes × ℕ × ℕ) : Call := .uartRead port (some r.1) r.2.1 (some r.2.2)

/-- The header of a DATA frame that comes in. -/
theorem header_of_data {f : Frame} {port : UInt8} {seq : UInt16} {payload : Bytes} (hp : payload.length ≤ 488)
    (hf : f.bytes = dataFrame port seq payload) : f.header = (dataHeader port seq).forPayload payload := by
  have hdec := f.decodes
  have hframe : decodeHeader f.bytes f.bytes.length = .ok ((dataHeader port seq).forPayload payload) := by
    rw [hf]
    exact decodeHeader_image (forLen_sealed hp) payload (by simp [dataFrame])
  rw [hframe] at hdec
  exact (Except.ok.inj hdec).symm

/-- **A DATA frame for the port is handed over.** -/
theorem uartRead_step {host : Host σ} {dev : Device} {port : UInt8} {seq : UInt16} {payload : Bytes}
    (hp : payload.length ≤ 488) {f : CutFrame} (hf : f.bytes = dataFrame port seq payload) {r : Bytes × ℕ × ℕ}
    (hr : 488 ≤ r.2.1) {s s' : σ} (hd : Delivers host dev.timeoutMs s f.events s') :
    let st := (readOf port r).step host dev s
    Yields payload st ∧ st.reply.dev = dev ∧ st.reply.state = s' := by
  intro st
  have hheader := header_of_data hp hf
  have hlen : f.header.payloadLen.toNat = payload.length := by rw [hheader]; exact forLen_payloadLen hp
  have hpayload : (f.bytes.drop HEADER_LEN).take payload.length = payload := by
    rw [hf, dataFrame, frameBytes, List.drop_left' (by simp), List.take_length]
  have haccept : acceptData port r.2.1 f.header f.bytes ⟨none, some r.1, some r.2.2⟩ =
      (.ok, ⟨none, some (payload ++ r.1.drop payload.length), some payload.length⟩) := by
    unfold acceptData
    rw [if_neg (by rw [hheader]; simp [dataHeader, Header.forPayload, Header.forLen, Header.complete]),
      if_neg (by omega), Out.store, hlen, hpayload]
    simp
  have hreply : st.reply = ⟨.ok, ⟨none, some (payload ++ r.1.drop payload.length), some payload.length⟩, dev, s'⟩ := by
    rw [Call.step_reply]
    simp only [readOf, Call.run, UsbMux.uartRead]
    rw [if_neg (by simp), receive_of_delivers _ _ f hd]
    simp only [acceptData, Out.store_frame] at haccept ⊢
    rw [haccept]
  refine ⟨⟨?_, ?_, ?_⟩, ?_, ?_⟩
  · rw [hreply]
  · rw [hreply]
  · rw [hreply, Option.map_some, List.take_left' rfl]
  · rw [hreply]
  · rw [hreply]

theorem uartRead_run {host : Host σ} {dev : Device} {port : UInt8} : ∀ {payloads : List Bytes} {sender : Device}
    {cuts : List CutFrame} {bufs : List (Bytes × ℕ × ℕ)} {s s' : σ}, (∀ p ∈ payloads, p.length ≤ 488) →
    cuts.map (·.bytes) = dataFrames port sender payloads → bufs.length = payloads.length →
    (∀ r ∈ bufs, 488 ≤ r.2.1) → Delivers host dev.timeoutMs s (cuts.flatMap CutFrame.events) s' →
    List.Forall₂ Yields payloads (run host (bufs.map (readOf port)) dev s)
  | [], _, _, bufs, s, s', _, _, hlen, _, _ => by
    obtain rfl := List.length_eq_zero_iff.mp hlen
    exact .nil
  | p :: ps, sender, cuts, bufs, s, s', hpayloads, hcuts, hlen, hbufs, hd => by
    obtain ⟨f, fs, rfl, hf, hfs⟩ := List.map_eq_cons_iff.mp hcuts
    obtain ⟨r, rs, rfl⟩ := List.exists_cons_of_length_eq_add_one hlen
    obtain ⟨hp, hps⟩ := List.forall_mem_cons.mp hpayloads
    obtain ⟨hr, hrs⟩ := List.forall_mem_cons.mp hbufs
    rw [List.flatMap_cons] at hd
    obtain ⟨s₁, hdf, hdfs⟩ := delivers_append.mp hd
    obtain ⟨hyields, hdev, hstate⟩ := uartRead_step hp hf hr hdf
    rw [List.map_cons, run_cons, hdev, hstate]
    exact .cons hyields (uartRead_run hps hfs (Nat.succ.inj hlen) hrs hdfs)

/-- **UART data from end to end.** Writes to a device that takes what it is
offered all return OK and send one DATA frame each. When those frames come in
again, on whatever host and however they are cut, as many reads give the
payloads back in order. A longer payload is refused on any host, with nothing
offered. -/
theorem uart_end_to_end (host : Host σ) (hout : host.TakesOut) (port : UInt8) (dev : Device) (s : σ)
    (datas : List (Option Bytes)) (hdatas : ∀ d ∈ datas, (d.getD []).length ≤ 488) :
    let payloads := datas.map (·.getD [])
    let steps := run host (datas.map (writeOf port)) dev s
    ((∀ st ∈ steps, st.reply.ret = .ok) ∧ sent steps = (dataFrames port dev payloads).flatten) ∧
    (∀ (τ : Type) (host' : Host τ) (dev' : Device) (s₁ s₂ : τ) (cuts : List CutFrame) (bufs : List (Bytes × ℕ × ℕ)),
      cuts.map (·.bytes) = dataFrames port dev payloads → bufs.length = datas.length → (∀ r ∈ bufs, 488 ≤ r.2.1) →
      Delivers host' dev'.timeoutMs s₁ (cuts.flatMap CutFrame.events) s₂ →
      List.Forall₂ Yields payloads (run host' (bufs.map (readOf port)) dev' s₁)) ∧
    ∀ (τ : Type) (host' : Host τ) (dev' : Device) (s' : τ) (data : Bytes), 488 < data.length →
      let st := (writeOf port (some data)).step host' dev' s'
      st.reply.ret = .errOverflow ∧ st.events = [] := by
  refine ⟨uartWrite_run hout port datas dev s hdatas, ?_, ?_⟩
  · intro τ host' dev' s₁ s₂ cuts bufs hcuts hlen hbufs hd
    have hpayloads : ∀ p ∈ datas.map (·.getD []), p.length ≤ 488 := List.forall_mem_map.mpr hdatas
    exact uartRead_run hpayloads hcuts (by rw [List.length_map, hlen]) hbufs hd
  · intro τ host' dev' s' data hlen
    exact uartWrite_refused host' port dev' s' data hlen

/-- A host that takes `n + 1` bytes a transfer at most. -/
def Host.sipping (stack : Stack) (n : ℕ) : Host Unit where
  bulkIn _ _ s := (⟨.timeout, []⟩, s)
  bulkOut _ chunk s := (⟨.success, min (n + 1) chunk.length⟩, s)
  interruptIn _ _ s := (⟨.timeout, []⟩, s)
  stack _ n := stack.bytes n
  bulkIn_le _ _ _ := Nat.zero_le _
  bulkOut_le _ _ _ := Nat.min_le_right _ _
  interruptIn_le _ _ _ := Nat.zero_le _
  length_stack _ n := stack.length_bytes n

theorem Host.sipping_takesOut (stack : Stack) (n : ℕ) : (Host.sipping stack n).TakesOut :=
  fun _ _ _ hne => ⟨rfl, Nat.lt_min.mpr ⟨Nat.succ_pos n, List.length_pos_iff.mpr hne⟩⟩

/-- A DATA frame of one packet. -/
def dataCut (port : UInt8) (seq : UInt16) (payload : Bytes) (hp : payload.length ≤ 40) : CutFrame :=
  (Frame.build (dataHeader port seq) payload (Nat.le_trans hp (Nat.le_of_ble_eq_true rfl))).whole (Frame.build_le hp)

theorem uart_end_to_end_two :
    let datas : List (Option Bytes) := [some [0x41, 0x42], none]
    let cuts := [dataCut 1 1 [0x41, 0x42] (Nat.le_of_ble_eq_true rfl), dataCut 1 2 [] (Nat.zero_le _)]
    let bufs : List (Bytes × ℕ × ℕ) := [(List.replicate 488 0, 488, 0), (List.replicate 488 0, 488, 0)]
    let sends := run (Host.sipping Stack.zero 6) (datas.map (writeOf 1)) freshDevice ()
    ((∀ st ∈ sends, st.reply.ret = .ok) ∧ sent sends = (dataFrames 1 freshDevice [[0x41, 0x42], []]).flatten) ∧
      List.Forall₂ Yields [[0x41, 0x42], []] (run (Pipe.host Stack.zero silent) (bufs.map (readOf 1)) freshDevice
        ⟨cuts.flatMap CutFrame.events, ()⟩) := by
  intro datas cuts bufs sends
  have hall := uart_end_to_end (Host.sipping Stack.zero 6) (Host.sipping_takesOut Stack.zero 6) 1 freshDevice ()
    datas (by decide)
  exact ⟨hall.1, hall.2.1 (Pipe Unit) (Pipe.host Stack.zero silent) freshDevice _ ⟨[], ()⟩ cuts bufs rfl rfl (by decide)
    (Pipe.delivers_all _ _ _ _ _)⟩

end UsbMux
