/-
# What is on the stack does not show

The driver builds and receives frames in arrays that it does not initialise.
Whatever these hold at first, nothing of it is seen: on two hosts that differ
only in what is on the stack (`Host.Alike`) the same bytes go out, and every
call returns the same and stores the same for its caller
(`calls_ignore_stack`).

A receive fails, or takes a frame, before it looks at the caller's objects
(`Taken`), and both hosts take the same (`receive_taken`). This is what the
rest goes back to.

Key definitions: `Host.Alike`, `SameRead`, `Taken`.
Key theorems: `readLoop_alike`, `receive_taken`, `transact_taken`,
`calls_ignore_stack`.
-/
import UsbMux.Channel

namespace UsbMux

open Buffer

variable {σ : Type}

/-- The hosts differ only in what is on the stack. -/
structure Host.Alike (host host' : Host σ) : Prop where
  bulkIn : ∀ t n s, host'.bulkIn t n s = host.bulkIn t n s
  bulkOut : ∀ t chunk s, host'.bulkOut t chunk s = host.bulkOut t chunk s
  interruptIn : ∀ t n s, host'.interruptIn t n s = host.interruptIn t n s

variable {host host' : Host σ}

theorem Host.Alike.logged (h : host.Alike host') : host.logged.Alike host'.logged where
  bulkIn t n s := by simp only [Host.logged, h.bulkIn]
  bulkOut t chunk s := by simp only [Host.logged, h.bulkOut]
  interruptIn t n s := by simp only [Host.logged, h.interruptIn]

/-! ### Reading -/

/-- Both reads end alike, with the same frame at the front of the buffer. -/
structure SameRead (r r' : FrameRead σ) : Prop where
  ret : r'.ret = r.ret
  frameLen : r'.frameLen = r.frameLen
  state : r'.state = r.state
  front : r.ret = .ok → ∃ R more more', r.frame = R ++ more ∧ r'.frame = R ++ more' ∧ r.frameLen ≤ R.length

theorem SameRead.failed {ret : Result} (hret : ret ≠ .ok) (frame frame' : Bytes) (s : σ) :
    SameRead ⟨ret, frame, 0, s⟩ ⟨ret, frame', 0, s⟩ := ⟨rfl, rfl, rfl, fun h => absurd h hret⟩

theorem decodeHeader_within (R more more' : Bytes) {n : ℕ} (hn : n ≤ R.length) :
    decodeHeader (R ++ more) n = decodeHeader (R ++ more') n := by
  by_cases h24 : 24 ≤ n
  · have hR := h24.trans hn
    exact (decodeHeader_front (List.prefix_append R more) hR h24 h24).symm.trans
      (decodeHeader_front (List.prefix_append R more') hR h24 h24)
  · unfold decodeHeader
    rw [if_pos (Nat.lt_of_not_le h24), if_pos (Nat.lt_of_not_le h24)]

theorem decodeHeader_writeAt (R rest rest' data : Bytes) :
    decodeHeader (writeAt (R ++ rest) R.length data) (R.length + data.length) =
      decodeHeader (writeAt (R ++ rest') R.length data) (R.length + data.length) := by
  rw [writeAt_append, writeAt_append, ← List.length_append]
  exact decodeHeader_within (R ++ data) _ _ le_rfl

/-- **The read loop** does not look past what it has received. -/
theorem readLoop_alike (h : host.Alike host') (dev : Device) (cap offset targetLen : ℕ) (frame : Bytes) (s : σ) :
    ∀ R rest rest' : Bytes, R.length = offset → frame = R ++ rest →
      SameRead (readLoop host dev cap offset targetLen frame s)
      (readLoop host' dev cap offset targetLen (R ++ rest') s) := by
  fun_induction readLoop host dev cap offset targetLen frame s with
  | case1 offset targetLen frame s hlt capacity hc =>
    rintro R rest rest' rfl rfl
    rw [readLoop, if_pos hlt]
    dsimp only
    rw [if_pos hc]
    exact .failed Result.noConfusion _ _ s
  | case2 offset targetLen frame s hlt capacity hc x s₁ hx frame₁ hret =>
    rintro R rest rest' rfl rfl
    rw [readLoop_round hlt hc ((h.bulkIn ..).trans hx), if_pos hret]
    exact .failed (mapLibusbError_ne_ok _) _ _ s₁
  | case3 offset targetLen frame s hlt capacity hc x s₁ hx frame₁ hret hdata =>
    rintro R rest rest' rfl rfl
    rw [readLoop_round hlt hc ((h.bulkIn ..).trans hx), if_neg hret, if_pos hdata]
    exact .failed Result.noConfusion _ _ s₁
  | case4 offset targetLen frame s hlt capacity hc x s₁ hx frame₁ hret hdata offset₁ htgt ret hdec =>
    rintro R rest rest' rfl rfl
    rw [readLoop_round hlt hc ((h.bulkIn ..).trans hx), if_neg hret, if_neg hdata, if_pos htgt,
      decodeHeader_writeAt R rest' rest x.data, show decodeHeader _ _ = _ from hdec]
    exact .failed (decodeHeader_error_ne_ok hdec) _ _ s₁
  | case5 offset targetLen frame s hlt capacity hc x s₁ hx frame₁ hret hdata offset₁ htgt header hdec hbig =>
    rintro R rest rest' rfl rfl
    rw [readLoop_round hlt hc ((h.bulkIn ..).trans hx), if_neg hret, if_neg hdata, if_pos htgt,
      decodeHeader_writeAt R rest' rest x.data, show decodeHeader _ _ = _ from hdec]
    dsimp only
    rw [if_pos hbig]
    exact .failed Result.noConfusion _ _ s₁
  | case6 offset targetLen frame s hlt capacity hc x s₁ hx frame₁ hret hdata offset₁ htgt header hdec hbig ih =>
    rintro R rest rest' rfl rfl
    rw [readLoop_round hlt hc ((h.bulkIn ..).trans hx), if_neg hret, if_neg hdata, if_pos htgt,
      decodeHeader_writeAt R rest' rest x.data, show decodeHeader _ _ = _ from hdec]
    dsimp only
    rw [if_neg hbig, writeAt_append]
    exact ih (R ++ x.data) _ _ (List.length_append ..) (writeAt_append ..)
  | case7 offset targetLen frame s hlt capacity hc x s₁ hx frame₁ hret hdata offset₁ htgt ih =>
    rintro R rest rest' rfl rfl
    rw [readLoop_round hlt hc ((h.bulkIn ..).trans hx), if_neg hret, if_neg hdata, if_neg htgt, writeAt_append]
    exact ih (R ++ x.data) _ _ (List.length_append ..) (writeAt_append ..)
  | case8 offset targetLen frame s hlt =>
    rintro R rest rest' rfl rfl
    rw [readLoop, if_neg hlt]
    exact ⟨rfl, rfl, rfl, fun _ => ⟨R, rest, rest', rfl, rfl, Nat.le_of_not_lt hlt⟩⟩

theorem readFrame_alike (h : host.Alike host') (dev : Device) (buf buf' : Bytes) (s : σ) :
    SameRead (readFrame host dev buf 512 0 s) (readFrame host' dev buf' 512 0 s) :=
  readLoop_alike h dev 512 0 HEADER_LEN buf s [] buf buf' rfl rfl

/-- What a receive takes from the wire: nothing, or a frame. -/
inductive Taken (σ : Type)
  | failed (ret : Result) (hret : ret ≠ .ok) (s : σ)
  | frame (f : Frame) (s : σ)

/-- What the caller makes of it. -/
def Taken.result (accept : Header → Bytes → Out → Result × Out) (out : Out) : Taken σ → Result × Out × σ
  | failed ret _ s => (ret, out, s)
  | frame f s => ((accept f.header f.bytes out).1, (accept f.header f.bytes out).2, s)

section Receive

variable {dev : Device} {accept : Header → Bytes → Out → Result × Out} {out : Out} {s : σ} {rd : FrameRead σ}
  (hrd : readFrame host dev (host.stack s 512) 512 0 s = rd)

include hrd

theorem receive_of_failed (h : rd.ret ≠ .ok) : receive host dev accept out s = (rd.ret, out, rd.state) := by
  subst hrd
  exact if_pos h

theorem receive_of_error {ret : Result} (h : rd.ret = .ok) (hdec : decodeHeader rd.frame rd.frameLen = .error ret) :
    receive host dev accept out s = (ret, out, rd.state) := by
  subst hrd
  refine (if_neg (not_not.mpr h)).trans ?_
  rw [show decodeHeader _ _ = _ from hdec]

theorem receive_of_header {header : Header} (h : rd.ret = .ok) (hdec : decodeHeader rd.frame rd.frameLen = .ok header) :
    receive host dev accept out s = ((accept header rd.frame out).1, (accept header rd.frame out).2, rd.state) := by
  subst hrd
  refine (if_neg (not_not.mpr h)).trans ?_
  rw [show decodeHeader _ _ = _ from hdec]

end Receive

/-- **Both hosts take the same**, whoever asks for it. -/
theorem receive_taken (h : host.Alike host') (dev : Device) (s : σ) :
    ∃ t : Taken σ, ∀ accept, OnFrame accept → ∀ out,
      receive host dev accept out s = t.result accept out ∧ receive host' dev accept out s = t.result accept out := by
  obtain ⟨evs, -, -, hspec⟩ := readFrame_spec host dev maxFrameLen_lt_size (host.stack s 512) 0 s
  have hsame := readFrame_alike h dev (host.stack s 512) (host'.stack s 512) s
  set rd := readFrame host dev (host.stack s 512) 512 0 s with hrd
  set rd' := readFrame host' dev (host'.stack s 512) 512 0 s with hrd'
  obtain ⟨hret, hlen, hstate, hfront⟩ := hsame
  by_cases hok : rd.ret = .ok
  swap
  · refine ⟨.failed rd.ret hok rd.state, fun accept _ out => ⟨receive_of_failed hrd.symm hok, ?_⟩⟩
    rw [receive_of_failed hrd'.symm (hret ▸ hok), hret, hstate]
    rfl
  obtain ⟨R, more, more', hframe, hframe', hle⟩ := hfront hok
  have hok' : rd'.ret = .ok := hret.trans hok
  have hdec' : decodeHeader rd'.frame rd'.frameLen = decodeHeader rd.frame rd.frameLen := by
    rw [hlen, hframe, hframe']
    exact decodeHeader_within R more' more hle
  rcases hdec : decodeHeader rd.frame rd.frameLen with ret | header
  · refine ⟨.failed ret (decodeHeader_error_ne_ok hdec) rd.state, fun accept _ out =>
      ⟨receive_of_error hrd.symm hok hdec, ?_⟩⟩
    rw [receive_of_error hrd'.symm hok' (hdec'.trans hdec), hstate]
    rfl
  have h24 : 24 ≤ rd.frameLen := le_of_decodeHeader_eq_ok hdec
  obtain ⟨hR, -, hgot, announced, hannounced, hn⟩ := hspec hok
  obtain rfl : header = announced := by
    have hsame := decodeHeader_front ⟨_, hgot.symm⟩ hR hR h24
    exact Except.ok.inj (hdec.symm.trans (hsame.symm.trans hannounced))
  -- the frame is what was received of as many bytes as it has
  have hbytes : (R.take rd.frameLen).length = rd.frameLen := List.length_take_of_le hle
  have hfirst : ∀ rest, R ++ rest = R.take rd.frameLen ++ (R.drop rd.frameLen ++ rest) := fun rest => by
    rw [← List.append_assoc, List.take_append_drop]
  have hf : decodeHeader (R.take rd.frameLen) (R.take rd.frameLen).length = .ok header := by
    rw [← hdec, hframe, hfirst more, hbytes]
    exact decodeHeader_front (List.prefix_append ..) (by omega) h24 h24
  refine ⟨.frame ⟨R.take rd.frameLen, header, hf, hbytes.trans hn⟩ rd.state, fun accept haccept out => ⟨?_, ?_⟩⟩
  · rw [receive_of_header hrd.symm hok hdec, hframe, hfirst more,
      haccept ⟨R.take rd.frameLen, header, hf, hbytes.trans hn⟩]
    rfl
  · rw [receive_of_header hrd'.symm hok' (hdec'.trans hdec), hframe', hfirst more',
      haccept ⟨R.take rd.frameLen, header, hf, hbytes.trans hn⟩, hstate]
    rfl

/-! ### Writing -/

theorem writeLoop_alike (h : host.Alike host') (dev : Device) {frame frame' : Bytes} {n : ℕ}
    (hsame : frame'.take n = frame.take n) (offset : ℕ) (s : σ) :
    writeLoop host' dev frame' n offset s = writeLoop host dev frame n offset s := by
  have hchunk (offset : ℕ) : (frame'.drop offset).take (n - offset) = (frame.drop offset).take (n - offset) := by
    rw [← List.drop_take, ← List.drop_take, hsame]
  fun_induction writeLoop host dev frame n offset s with
  | case1 offset s hlt chunk x s₁ hx hret =>
    rw [writeLoop, if_pos hlt]
    simp only [hchunk, h.bulkOut, show host.bulkOut _ ((frame.drop offset).take (n - offset)) s = _ from hx,
      if_pos hret]
  | case2 offset s hlt chunk x s₁ hx hret hzero =>
    rw [writeLoop, if_pos hlt]
    simp only [hchunk, h.bulkOut, show host.bulkOut _ ((frame.drop offset).take (n - offset)) s = _ from hx,
      if_neg hret,
      if_pos hzero]
  | case3 offset s hlt chunk x s₁ hx hret hzero ih =>
    rw [writeLoop, if_pos hlt]
    simp only [hchunk, h.bulkOut, show host.bulkOut _ ((frame.drop offset).take (n - offset)) s = _ from hx,
      if_neg hret,
      if_neg hzero, ih]
  | case4 offset s hlt => rw [writeLoop, if_neg hlt]

theorem writeFrame_alike (h : host.Alike host') (dev : Device) {frame frame' : Bytes} {n : ℕ}
    (hsame : frame'.take n = frame.take n) (s : σ) :
    writeFrame host' dev frame' n s = writeFrame host dev frame n s := by
  unfold writeFrame
  rw [writeLoop_alike h dev hsame]

/-- **A frame holds nothing of the array it is built in.** -/
theorem buildFrame_alike (header : Header) {payload : Option Bytes} {payloadLen : ℕ}
    (hp : ∀ p ∈ payload, payloadLen ≤ p.length) {dst dst' : Bytes} (hd : 512 ≤ dst.length) (hd' : 512 ≤ dst'.length) :
    let b := buildFrame dst 512 0 header payload payloadLen
    let b' := buildFrame dst' 512 0 header payload payloadLen
    b'.ret = b.ret ∧ (b.ret = .ok → b'.frameLen = b.frameLen ∧ b'.header = b.header ∧
      b'.dst.take b.frameLen = b.dst.take b.frameLen) := by
  intro b b'
  by_cases hfits : Fits 512 payload payloadLen
  · obtain ⟨f, -, hbytes, hdst⟩ := exists_framed hfits hp header hd
    obtain ⟨f', -, hbytes', hdst'⟩ := exists_framed hfits hp header hd'
    have hb : b = _ := buildFrame_eq 0 header hfits hd
    have hb' : b' = _ := buildFrame_eq 0 header hfits hd'
    have hlen : b'.frameLen = b.frameLen := by rw [hb, hb']
    refine ⟨by rw [hb, hb'], fun _ => ⟨hlen, by rw [hb, hb'], ?_⟩⟩
    exact (hlen ▸ hdst').trans (hbytes'.trans (hbytes.symm.trans hdst.symm))
  · have hret := (refusal_of_not_fits hfits dst 0 header).symm.trans (refusal_of_not_fits hfits dst' 0 header)
    refine ⟨(Option.some.inj hret).symm, fun hok => ?_⟩
    exact absurd ((buildFrame_ok hd).mp hok) hfits

/-! ### Calls -/

/-- What `transact` returns for what it takes. -/
def Taken.reply (dev : Device) (accept : Header → Bytes → Out → Result × Out) (out : Out) (t : Taken σ) : Reply σ Out :=
  ⟨(t.result accept out).1, (t.result accept out).2.1, dev, (t.result accept out).2.2⟩

theorem transact_taken (h : host.Alike host') (dev : Device) (chType chId msgType opcode : UInt8)
    {payload : Option Bytes} {payloadLen : ℕ} (hp : ∀ p ∈ payload, payloadLen ≤ p.length) (s : σ) :
    ∃ t : Taken σ, ∀ out capacity,
      let r := t.reply (nextSeq dev).2 (acceptResponse dev.nextSeq chType chId opcode capacity) out
      transact host dev chType chId msgType opcode payload payloadLen out capacity s = r ∧
        transact host' dev chType chId msgType opcode payload payloadLen out capacity s = r := by
  set req : Header := { Header.zero with
    seq := dev.nextSeq, chType := chType, chId := chId, msgType := msgType, opcode := opcode }
  obtain ⟨hret, hbuilt⟩ := buildFrame_alike req hp (host.length_stack s 512).ge (host'.length_stack s 512).ge
  have hseq : ∀ host : Host σ, (buildFrame (host.stack s 512) 512 0 req payload payloadLen).ret = .ok →
      (buildFrame (host.stack s 512) 512 0 req payload payloadLen).header.seq = dev.nextSeq := fun host hok => by
    rw [buildFrame_eq 0 req ((buildFrame_ok (host.length_stack s 512).ge).mp hok) (host.length_stack s 512).ge]
    rfl
  have htransact : ∀ (host : Host σ) out capacity,
      transact host dev chType chId msgType opcode payload payloadLen out capacity s =
        let b := buildFrame (host.stack s 512) 512 0 req payload payloadLen
        let w := writeFrame host (nextSeq dev).2 b.dst b.frameLen s
        let r := receive host (nextSeq dev).2 (acceptResponse b.header.seq chType chId opcode capacity) out w.2
        if b.ret ≠ .ok then ⟨b.ret, out, (nextSeq dev).2, s⟩
        else if w.1 ≠ .ok then ⟨w.1, out, (nextSeq dev).2, w.2⟩ else ⟨r.1, r.2.1, (nextSeq dev).2, r.2.2⟩ :=
    fun _ _ _ => rfl
  simp only [htransact]
  have hseq' := hseq host'
  replace hseq := hseq host
  set b := buildFrame (host.stack s 512) 512 0 req payload payloadLen
  set b' := buildFrame (host'.stack s 512) 512 0 req payload payloadLen
  rw [hret] at hseq' ⊢
  by_cases hok : b.ret ≠ .ok
  · refine ⟨.failed b.ret hok s, fun out capacity => ?_⟩
    rw [if_pos hok, if_pos hok]
    exact ⟨rfl, rfl⟩
  obtain ⟨hlen, -, hdst⟩ := hbuilt (not_not.mp hok)
  simp only [if_neg hok, hlen, writeFrame_alike h (nextSeq dev).2 hdst, hseq (not_not.mp hok), hseq' (not_not.mp hok)]
  set w := writeFrame host (nextSeq dev).2 b.dst b.frameLen s
  by_cases hw : w.1 ≠ .ok
  · refine ⟨.failed w.1 hw w.2, fun out capacity => ?_⟩
    rw [if_pos hw, if_pos hw]
    exact ⟨rfl, rfl⟩
  obtain ⟨t, ht⟩ := receive_taken h (nextSeq dev).2 w.2
  refine ⟨t, fun out capacity => ?_⟩
  obtain ⟨hr, hr'⟩ := ht (acceptResponse dev.nextSeq chType chId opcode capacity)
    (acceptResponse_onFrame dev.nextSeq chType chId opcode capacity) out
  rw [if_neg hw, if_neg hw, hr, hr']
  exact ⟨rfl, rfl⟩

theorem uartWrite_alike (h : host.Alike host') (dev : Device) (port : UInt8) {data : Option Bytes} {len : ℕ}
    (hp : ∀ p ∈ data, len ≤ p.length) (s : σ) :
    uartWrite host' dev port data len s = uartWrite host dev port data len s := by
  have huartWrite : ∀ host : Host σ, uartWrite host dev port data len s =
      let b := buildFrame (host.stack s 512) 512 0 (dataHeader port dev.nextSeq) data len
      let w := writeFrame host (nextSeq dev).2 b.dst b.frameLen s
      if data.isNone ∧ len ≠ 0 then (.errArg, dev, s)
      else if b.ret ≠ .ok then (b.ret, (nextSeq dev).2, s) else (w.1, (nextSeq dev).2, w.2) := fun _ => rfl
  obtain ⟨hret, hbuilt⟩ := buildFrame_alike (dataHeader port dev.nextSeq) hp (host.length_stack s 512).ge
    (host'.length_stack s 512).ge
  rw [huartWrite, huartWrite]
  dsimp only
  rw [hret]
  by_cases harg : data.isNone ∧ len ≠ 0
  · rw [if_pos harg, if_pos harg]
  rw [if_neg harg, if_neg harg]
  set b := buildFrame (host.stack s 512) 512 0 (dataHeader port dev.nextSeq) data len
  by_cases hok : b.ret ≠ .ok
  · rw [if_pos hok, if_pos hok]
  · obtain ⟨hlen, -, hdst⟩ := hbuilt (not_not.mp hok)
    rw [if_neg hok, if_neg hok, hlen, writeFrame_alike h (nextSeq dev).2 hdst]

/-- **A call** does the same on both hosts. -/
theorem Call.run_alike (h : host.Alike host') (dev : Device) (s : σ) {c : Call} (hc : c.Proper) :
    c.run host' dev s = c.run host dev s := by
  cases c with
  | transact chType chId msgType opcode payload payloadLen out cap =>
    obtain ⟨t, ht⟩ := transact_taken h dev chType chId msgType opcode hc s
    exact (ht out cap).2.trans (ht out cap).1.symm
  | bleTransact opcode payload payloadLen rspPayload cap rspLen =>
    obtain ⟨t, ht⟩ := transact_taken h dev ChannelType.bleMgmt.code 0 MsgType.cmd.code opcode hc s
    exact (ht ⟨none, rspPayload, rspLen⟩ cap).2.trans (ht ⟨none, rspPayload, rspLen⟩ cap).1.symm
  | uartWrite port data len =>
    unfold Call.run
    dsimp only
    rw [uartWrite_alike h dev port hc]
  | uartRead port data cap len =>
    obtain ⟨t, ht⟩ := receive_taken h dev s
    obtain ⟨hr, hr'⟩ := ht (acceptData port cap) (acceptData_onFrame port cap) ⟨none, data, len⟩
    unfold Call.run
    dsimp only
    unfold UsbMux.uartRead
    dsimp only
    rw [hr, hr']
  | bleReadEvent out cap =>
    obtain ⟨t, ht⟩ := receive_taken h dev s
    obtain ⟨hr, hr'⟩ := ht (acceptEvent cap) (acceptEvent_onFrame cap) out
    unfold Call.run
    dsimp only
    unfold UsbMux.bleReadEvent
    rw [hr, hr']
  | nextSeq => rfl

/-- An array that is filled holds nothing else. -/
theorem Host.stack_filled (host : Host σ) (s : σ) {p : Bytes} {n : ℕ} (hn : p.length = n) :
    writeAt (host.stack s n) 0 p = p := by
  have hdrop : (host.stack s n).drop p.length = [] := List.drop_eq_nil_of_le (hn ▸ (host.length_stack s n).le)
  rw [writeAt_zero, hdrop, List.append_nil]

theorem readHint_alike (h : host.Alike host') (dev : Device) (hint : IrqHint) (s : σ) :
    readHint host' dev hint s = readHint host dev hint s := by
  unfold readHint
  rw [h.interruptIn]
  rcases host.interruptIn dev.timeoutMs EP_HINT_SIZE s with ⟨x, s₁⟩
  dsimp only
  by_cases hret : x.ret ≠ .success
  · rw [if_pos hret, if_pos hret]
  by_cases hlen : x.data.length ≠ EP_HINT_SIZE
  · rw [if_neg hret, if_neg hret, if_pos hlen, if_pos hlen]
  · rw [host.stack_filled s (not_not.mp hlen), host'.stack_filled s (not_not.mp hlen)]

/-- Two stacks under one device. -/
theorem Pipe.host_alike {δ : Type} (stack stack' : Stack) (react : Bytes → δ → List InEvent × δ) :
    (Pipe.host stack react).Alike (Pipe.host stack' react) := ⟨fun _ _ _ => rfl, fun _ _ _ => rfl, fun _ _ _ => rfl⟩

def Stack.ones : Stack := ⟨fun n => List.replicate n 0xff, fun _ => List.length_replicate⟩

/-- **Calls ignore the stack.** Two hosts that differ only in what is on the
stack see the same run of calls: each returns the same, stores the same in
the caller's objects, and makes the same transfers with the same bytes. So
does the read of the hint. -/
theorem calls_ignore_stack (h : host.Alike host') (calls : List Call) (hcalls : ∀ c ∈ calls, c.Proper) (dev : Device)
    (s : σ) : run host' calls dev s = run host calls dev s ∧
      ∀ hint, readHint host' dev hint s = readHint host dev hint s := by
  constructor
  · induction calls generalizing dev s with
    | nil => rfl
    | cons c cs ih =>
      obtain ⟨hc, hcs⟩ := List.forall_mem_cons.mp hcalls
      have hstep : c.step host' dev s = c.step host dev s := by
        unfold Call.step
        rw [Call.run_alike h.logged dev (s, []) hc]
      rw [run_cons, run_cons, hstep, ih hcs]
  · intro hint
    exact readHint_alike h dev hint s

/-- A heartbeat, with ones on the stack instead of zeros. -/
theorem calls_ignore_stack_ones :
    let calls := [Call.transact ChannelType.sys.code 0 MsgType.cmd.code SYS_HEARTBEAT (some [0x70]) 1
      ⟨none, none, none⟩ 0]
    run (Pipe.host Stack.ones silent) calls freshDevice ⟨[], ()⟩ =
      run (Pipe.host Stack.zero silent) calls freshDevice ⟨[], ()⟩ := by
  intro calls
  have hcalls : ∀ c ∈ calls, c.Proper := List.forall_mem_singleton.mpr fun p hp => by
    cases hp
    decide
  exact (calls_ignore_stack (Pipe.host_alike Stack.zero Stack.ones silent) calls hcalls freshDevice ⟨[], ()⟩).1

end UsbMux
