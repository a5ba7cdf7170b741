/-
# What the tool prints

The commands hand the driver objects of their own that they have not
initialised, and print from them, or compare with them, once a call has
returned. They look only at what the call has stored: on two hosts that
differ only in what is on the stack every command prints the same lines, and
the program exits with the same code (`tool_ignores_stack`).

A verdict on a frame does not look at the caller's objects (`Heedless`), and
a frame that is taken is stored from its first byte to its last. So a query
fills its buffer or fails (`query_alike`), and the loops of the loopback and
of the scan go by what has come in (`readChunks_alike`, `scanLoop_alike`).

Key definitions: `Heedless`, `SameReply`, `SameChunks`.
Key theorems: `Taken.result_alike`, `query_alike`, `readChunks_alike`,
`scanLoop_alike`, `tool_ignores_stack`.
-/
import UsbMux.Main
import UsbMux.Uninitialised

namespace UsbMux

open Buffer

variable {σ : Type} {host host' : Host σ}

/-! ### What a caller makes of it -/

/-- The verdict on a frame does not look at what the caller's objects hold. -/
def Heedless (accept : Header → Bytes → Out → Result × Out) : Prop :=
  ∀ h frame out out', out'.payload.isNone = out.payload.isNone → (accept h frame out').1 = (accept h frame out).1

theorem acceptResponse_heedless (seq : UInt16) (chType chId opcode : UInt8) (cap : ℕ) :
    Heedless (acceptResponse seq chType chId opcode cap) := by
  intro h frame out out' hsame
  unfold acceptResponse
  rw [hsame]
  split_ifs <;> rfl

theorem acceptData_heedless (port : UInt8) (cap : ℕ) : Heedless (acceptData port cap) := by
  intro h frame out out' _
  unfold acceptData
  split_ifs <;> rfl

theorem acceptEvent_heedless (cap : ℕ) : Heedless (acceptEvent cap) := by
  intro h frame out out' hsame
  unfold acceptEvent
  rw [hsame]
  split_ifs <;> rfl

/-- Two callers get the same verdict, and where it is OK the same frame. -/
theorem Taken.result_alike {cap : ℕ} {accept : Header → Bytes → Out → Result × Out} (hst : Stores cap accept)
    (hheed : Heedless accept) (t : Taken σ) (out out' : Out) (hsame : out'.payload.isNone = out.payload.isNone) :
    let r := t.result accept out
    let r' := t.result accept out'
    r'.1 = r.1 ∧ r'.2.2 = r.2.2 ∧
      (r.1 = .ok → ∃ f : Frame, r.2.1 = out.store f.header f.bytes ∧ r'.2.1 = out'.store f.header f.bytes) := by
  cases t with
  | failed ret hret s => exact ⟨rfl, rfl, fun h => absurd h hret⟩
  | frame f s =>
    have hret := hheed f.header f.bytes out out' hsame
    refine ⟨hret, rfl, fun hok => ⟨f, ?_, ?_⟩⟩
    · exact (hst f.header f.bytes out _ (Prod.ext hok rfl)).2
    · exact (hst f.header f.bytes out' _ (Prod.ext (hret.trans hok) rfl)).2

/-- The payload of a frame. -/
def Frame.stored (f : Frame) : Bytes := (f.bytes.drop HEADER_LEN).take f.header.payloadLen.toNat

theorem Frame.length_stored (f : Frame) : f.stored.length = f.header.payloadLen.toNat := by
  have hlen := f.length_payload
  unfold Frame.stored
  rw [List.length_take, List.length_drop]
  simp only [HEADER_LEN]
  omega

/-- As many bytes as were stored are those of the frame. -/
theorem Out.stored_bytes (f : Frame) (buf : Bytes) (n : ℕ) :
    let out := Out.store ⟨none, some buf, some n⟩ f.header f.bytes
    out.len.getD 0 = f.header.payloadLen.toNat ∧ (out.payload.getD []).take (out.len.getD 0) = f.stored := by
  refine ⟨rfl, ?_⟩
  show (writeAt buf 0 f.stored).take f.header.payloadLen.toNat = f.stored
  rw [writeAt_zero]
  exact List.take_left' f.length_stored

/-- Both replies are the same, and so is what is looked at of the objects of a
call that returned OK. -/
structure SameReply {α β : Type} (view : α → β) (r r' : Reply σ α) : Prop where
  ret : r'.ret = r.ret
  dev : r'.dev = r.dev
  state : r'.state = r.state
  out : r.ret = .ok → view r'.out = view r.out

theorem SameReply.command {α : Type} {print : α → List Line} {r r' : Reply σ α} (h : SameReply print r r') (op : Op) :
    r'.command op print = r.command op print := by
  unfold Reply.command
  rw [h.ret, h.dev, h.state]
  by_cases hok : r.ret ≠ .ok
  · rw [if_pos hok, if_pos hok]
  · rw [if_neg hok, if_neg hok, h.out (not_not.mp hok)]

theorem SameReply.shows {α β : Type} {r r' : Reply σ α} (h : SameReply id r r') (view : α → β) : SameReply view r r' :=
  ⟨h.ret, h.dev, h.state, fun hok => congrArg view (h.out hok)⟩

/-- **A query** fills its buffer, or fails. -/
theorem query_alike {ρ : Type} {size : ℕ} {s : σ} {call call' : Out → ℕ → σ → Reply σ Out} {dev' : Device} {t : Taken σ}
    {seq : UInt16} {chType chId opcode : UInt8}
    (hcall : ∀ buf, call ⟨none, some buf, some 0⟩ size s =
      t.reply dev' (acceptResponse seq chType chId opcode size) ⟨none, some buf, some 0⟩)
    (hcall' : ∀ buf, call' ⟨none, some buf, some 0⟩ size s =
      t.reply dev' (acceptResponse seq chType chId opcode size) ⟨none, some buf, some 0⟩)
    (parse : Bytes → ρ) (dev : Device) (record record' : ρ) :
    SameReply id (query host call size parse dev (some record) s)
      (query host' call' size parse dev (some record') s) := by
  obtain ⟨hret, hstate, hstored⟩ := t.result_alike (acceptResponse_stores seq chType chId opcode size)
    (acceptResponse_heedless seq chType chId opcode size)
    ⟨none, some (host.stack s size), some 0⟩ ⟨none, some (host'.stack s size), some 0⟩ rfl
  rw [query_of_reply (hcall _) parse record, query_of_reply (hcall' _) parse record', hret, hstate]
  set r := t.result (acceptResponse seq chType chId opcode size) ⟨none, some (host.stack s size), some 0⟩
  set r' := t.result (acceptResponse seq chType chId opcode size) ⟨none, some (host'.stack s size), some 0⟩
  by_cases hok : r.1 ≠ .ok
  · rw [if_pos hok, if_pos hok]
    exact ⟨rfl, rfl, rfl, fun h => absurd h hok⟩
  obtain ⟨f, hout, hout'⟩ := hstored (not_not.mp hok)
  rw [if_neg hok, if_neg hok, hout, hout']
  have hlen : ∀ buf, (Out.store ⟨none, some buf, some 0⟩ f.header f.bytes).len = some f.header.payloadLen.toNat :=
    fun _ => rfl
  by_cases hsize : f.header.payloadLen.toNat = size
  · have hfits : ∀ buf, ¬(Out.store ⟨none, some buf, some 0⟩ f.header f.bytes).len ≠ some size := fun buf =>
      not_not.mpr ((hlen buf).trans (congrArg some hsize))
    have hpayload : ∀ host : Host σ,
        (Out.store ⟨none, some (host.stack s size), some 0⟩ f.header f.bytes).payload = some f.stored := fun host =>
      congrArg some (host.stack_filled s (f.length_stored.trans hsize))
    rw [if_neg (hfits _), if_neg (hfits _), hpayload, hpayload]
    exact ⟨rfl, rfl, rfl, fun _ => rfl⟩
  · have hmisfit : ∀ buf, (Out.store ⟨none, some buf, some 0⟩ f.header f.bytes).len ≠ some size := fun buf h =>
      hsize (Option.some.inj ((hlen buf).symm.trans h))
    rw [if_pos (hmisfit _), if_pos (hmisfit _)]
    exact ⟨rfl, rfl, rfl, fun h => Result.noConfusion h⟩

theorem uartQuery_alike (h : host.Alike host') (channel : ChannelType) (chId opcode : UInt8) (dev : Device) {ρ : Type}
    (size : ℕ) (parse : Bytes → ρ) (record record' : ρ) (s : σ) :
    SameReply id (query host (uartCommand host channel chId opcode dev) size parse dev (some record) s)
      (query host' (uartCommand host' channel chId opcode dev) size parse dev (some record') s) := by
  obtain ⟨t, ht⟩ := transact_taken h dev channel.code chId MsgType.cmd.code opcode proper_none s
  exact query_alike (fun buf => (ht _ size).1) (fun buf => (ht _ size).2) parse dev record record'

/-! ### The commands -/

/-- Both loops end alike; in `rx` they have the same as far as they have read. -/
structure SameChunks (r r' : ReadChunks σ) : Prop where
  done : r'.done = r.done
  rxTotal : r'.rxTotal = r.rxTotal
  copies : r'.copies = r.copies
  calls : r'.calls = r.calls
  state : r'.state = r.state
  rx : ∃ R rest rest', r.rx = R ++ rest ∧ r'.rx = R ++ rest' ∧ R.length = r.rxTotal

section

variable (h : host.Alike host') (dev : Device) (s : σ)

include h

theorem cmdProbe_alike : cmdProbe host' dev s = cmdProbe host dev s := by
  have hinfo := uartQuery_alike h .sys 0 SYS_GET_DEV_INFO dev 8 parseDevInfo (parseDevInfo (host.stack s 8))
    (parseDevInfo (host'.stack s 8)) s
  unfold cmdProbe sysGetDevInfo
  dsimp only
  set i := query host (uartCommand host .sys 0 SYS_GET_DEV_INFO dev) 8 parseDevInfo dev
    (some (parseDevInfo (host.stack s 8))) s
  set i' := query host' (uartCommand host' .sys 0 SYS_GET_DEV_INFO dev) 8 parseDevInfo dev
    (some (parseDevInfo (host'.stack s 8))) s
  obtain ⟨hret, hdev, hstate, hout⟩ := hinfo
  rw [hret, hdev, hstate]
  by_cases hok : i.ret ≠ .ok
  · rw [if_pos hok, if_pos hok]
  · rw [if_neg hok, if_neg hok, show i'.out = i.out from hout (not_not.mp hok)]
    exact ((uartQuery_alike h .sys 0 SYS_GET_CAPS i.dev 8 parseCaps _ _ i.state).shows _).command _

theorem cmdUartCap_alike (port : UInt8) : cmdUartCap host' dev port s = cmdUartCap host dev port s :=
  ((uartQuery_alike h .uartCtrl port UART_GET_PORT_CAP dev 12 parsePortCap _ _ s).shows _).command _

theorem uartOpen_alike (port : UInt8) (line : LineCoding) :
    uartOpen host' dev port (some line) s = uartOpen host dev port (some line) s :=
  Call.run_alike h dev s (c := .transact ChannelType.uartCtrl.code port MsgType.cmd.code UART_OPEN
    (some (lineCodingBytes line)) 8 ⟨none, none, none⟩ 0) (proper_some _)

theorem uartClose_alike (port : UInt8) : uartClose host' dev port s = uartClose host dev port s :=
  Call.run_alike h dev s (c := .transact ChannelType.uartCtrl.code port MsgType.cmd.code UART_CLOSE none 0
    ⟨none, none, none⟩ 0) proper_none

theorem cmdHeartbeat_alike (text : Bytes) : cmdHeartbeat host' dev text s = cmdHeartbeat host dev text s := by
  obtain ⟨t, ht⟩ := transact_taken h dev ChannelType.sys.code 0 MsgType.cmd.code SYS_HEARTBEAT (proper_some text) s
  obtain ⟨hret, hstate, hstored⟩ :=
    t.result_alike (acceptResponse_stores dev.nextSeq ChannelType.sys.code 0 SYS_HEARTBEAT 128)
    (acceptResponse_heedless dev.nextSeq ChannelType.sys.code 0 SYS_HEARTBEAT 128)
    ⟨none, some (host.stack s 128), some 0⟩ ⟨none, some (host'.stack s 128), some 0⟩ rfl
  unfold cmdHeartbeat sysHeartbeat
  rw [(ht _ 128).1, (ht _ 128).2]
  apply SameReply.command
  refine ⟨hret, rfl, hstate, fun hok => ?_⟩
  obtain ⟨f, hout, hout'⟩ := hstored hok
  unfold Taken.reply
  rw [hout, hout', (Out.stored_bytes f _ 0).2, (Out.stored_bytes f _ 0).2]
  rfl

/-- Both hosts receive the same frame, each into its caller's objects. -/
theorem receive_alike {cap : ℕ} {accept : Header → Bytes → Out → Result × Out} (hon : OnFrame accept)
    (hst : Stores cap accept) (hheed : Heedless accept) (out out' : Out)
    (hsame : out'.payload.isNone = out.payload.isNone)
    {ret : Result} {got : Out} {s₁ : σ} (hread : receive host dev accept out s = (ret, got, s₁)) :
    ∃ got', receive host' dev accept out' s = (ret, got', s₁) ∧
      (ret = .ok → ∃ f : Frame, got = out.store f.header f.bytes ∧ got' = out'.store f.header f.bytes) := by
  obtain ⟨t, ht⟩ := receive_taken h dev s
  obtain ⟨hret, hstate, hstored⟩ := t.result_alike hst hheed out out' hsame
  rw [← (ht accept hon out).1, ← (ht accept hon out').2, hread] at hret hstate hstored
  rcases hread' : receive host' dev accept out' s with ⟨ret', got', s'⟩
  rw [hread'] at hret hstate hstored
  obtain ⟨rfl, rfl⟩ : ret' = ret ∧ s' = s₁ := ⟨hret, hstate⟩
  exact ⟨got', rfl, hstored⟩

/-- Both hosts read the same chunk. -/
theorem uartRead_alike (port : UInt8) {ret : Result} {out : Out} {s₁ : σ}
    (hread : uartRead host dev port (some (host.stack s 512)) 512 (some 0) s = (ret, out, s₁)) :
    ∃ out', uartRead host' dev port (some (host'.stack s 512)) 512 (some 0) s = (ret, out', s₁) ∧
      (ret = .ok → out'.len.getD 0 = out.len.getD 0 ∧
        (out'.payload.getD []).take (out'.len.getD 0) = (out.payload.getD []).take (out.len.getD 0)) := by
  obtain ⟨out', hread', hstored⟩ := receive_alike h dev s (acceptData_onFrame port 512) (acceptData_stores port 512)
    (acceptData_heedless port 512) ⟨none, some (host.stack s 512), some 0⟩ ⟨none, some (host'.stack s 512), some 0⟩
    rfl hread
  refine ⟨out', hread', fun hok => ?_⟩
  obtain ⟨f, rfl, rfl⟩ := hstored hok
  obtain ⟨hlen, hbytes⟩ := Out.stored_bytes f (host.stack s 512) 0
  obtain ⟨hlen', hbytes'⟩ := Out.stored_bytes f (host'.stack s 512) 0
  exact ⟨hlen'.trans hlen.symm, hbytes'.trans hbytes.symm⟩

/-- **The loop of the loopback** compares only what it has read. -/
theorem readChunks_alike (port : UInt8) (n total : ℕ) (rx : Bytes) :
    ∀ R rest rest' : Bytes, R.length = total → rx = R ++ rest →
    SameChunks (readChunks host dev port n total rx s) (readChunks host' dev port n total (R ++ rest') s) := by
  fun_induction readChunks host dev port n total rx s with
  | case1 total rx s hlt ret out s₁ hread hret =>
    rintro R rest rest' rfl rfl
    obtain ⟨out', hread', -⟩ := uartRead_alike h dev s port hread
    rw [readChunks, if_pos hlt, show uartRead host' dev port _ _ _ s = _ from hread']
    dsimp only
    rw [if_pos hret]
    exact ⟨rfl, rfl, rfl, rfl, rfl, R, rest, rest', rfl, rfl, rfl⟩
  | case2 total rx s hlt ret out s₁ hread hret chunkLen chunk hbad =>
    rintro R rest rest' rfl rfl
    obtain ⟨out', hread', hchunk⟩ := uartRead_alike h dev s port hread
    obtain ⟨hlen, hbytes⟩ := hchunk (not_not.mp hret)
    rw [readChunks, if_pos hlt, show uartRead host' dev port _ _ _ s = _ from hread']
    dsimp only
    rw [if_neg hret, hbytes, hlen, if_pos hbad]
    exact ⟨rfl, rfl, rfl, rfl, rfl, R, rest, rest', rfl, rfl, rfl⟩
  | case3 total rx s hlt ret out s₁ hread hret chunkLen chunk hbad r ih =>
    rintro R rest rest' rfl rfl
    obtain ⟨out', hread', hchunk⟩ := uartRead_alike h dev s port hread
    obtain rfl : ret = .ok := not_not.mp hret
    obtain ⟨hlen, hbytes⟩ := hchunk rfl
    have hsize : chunk.length = chunkLen := (uartRead_chunk hread).2
    obtain ⟨hdone, htotal, hcopies, hcalls, hstate, hrx⟩ := ih (R ++ chunk) _ _
      ((List.length_append ..).trans (congrArg (R.length + ·) hsize)) (writeAt_append ..)
    rw [readChunks, if_pos hlt, show uartRead host' dev port _ _ _ s = _ from hread']
    dsimp only
    rw [if_neg hret, hbytes, hlen, if_neg hbad, writeAt_append]
    exact ⟨hdone, htotal, congrArg (List.cons _) hcopies, congrArg (List.cons _) hcalls, hstate, hrx⟩
  | case4 total rx s hlt =>
    rintro R rest rest' rfl rfl
    rw [readChunks, if_neg hlt]
    exact ⟨rfl, rfl, rfl, rfl, rfl, R, rest, rest', rfl, rfl, rfl⟩

/-- What is left of a loopback, but for the rest of `rx`. -/
theorem cmdUartLoopback_alike (port : UInt8) (baud : Option UInt32) (payload : Bytes) :
    let r := cmdUartLoopback host dev port baud payload s
    let r' := cmdUartLoopback host' dev port baud payload s
    r'.code = r.code ∧ r'.copies = r.copies ∧ r'.calls = r.calls ∧ r'.dev = r.dev ∧ r'.state = r.state := by
  intro r r'
  set o := uartOpen host dev port (some (loopbackLine baud)) s with ho
  set w := uartWrite host o.dev port (some payload) payload.length o.state with hw
  have hopen : uartOpen host' dev port (some (loopbackLine baud)) s = o :=
    uartOpen_alike h dev s port (loopbackLine baud)
  have hwrite : uartWrite host' o.dev port (some payload) payload.length o.state = w :=
    uartWrite_alike h o.dev port (proper_some payload) o.state
  unfold r r' cmdUartLoopback
  by_cases hbig : payload.length > MAX_FRAME_LEN - HEADER_LEN
  · rw [if_pos hbig, if_pos hbig]
    exact ⟨rfl, rfl, rfl, rfl, rfl⟩
  dsimp only
  rw [if_neg hbig, if_neg hbig, hopen, ← ho]
  by_cases hopened : o.ret ≠ .ok
  · rw [if_pos hopened, if_pos hopened]
    exact ⟨rfl, rfl, rfl, rfl, rfl⟩
  rw [if_neg hopened, if_neg hopened, hwrite, ← hw]
  by_cases hwritten : w.1 ≠ .ok
  · rw [if_pos hwritten, if_pos hwritten, uartClose_alike h]
    exact ⟨rfl, rfl, rfl, rfl, rfl⟩
  rw [if_neg hwritten, if_neg hwritten]
  set rd := readChunks host w.2.1 port payload.length 0 (host.stack s 512) w.2.2
  set rd' := readChunks host' w.2.1 port payload.length 0 (host'.stack s 512) w.2.2
  have hchunks : SameChunks rd rd' :=
    readChunks_alike h w.2.1 w.2.2 port payload.length 0 (host.stack s 512) [] _ _ rfl rfl
  obtain ⟨hdone, htotal, hcopies, hcalls, hstate, R, rest, rest', hR, hR', hlen⟩ := hchunks
  have hrx : rd.rxTotal = payload.length → rd'.rx.take payload.length = rd.rx.take payload.length := fun hn => by
    rw [hR, hR', List.take_left' (hlen.trans hn), List.take_left' (hlen.trans hn)]
  have hcompare : (rd'.rxTotal ≠ payload.length ∨ rd'.rx.take payload.length ≠ payload) ↔
      (rd.rxTotal ≠ payload.length ∨ rd.rx.take payload.length ≠ payload) := by
    rw [htotal]
    by_cases hn : rd.rxTotal = payload.length
    · rw [hrx hn]
    · exact iff_of_true (.inl hn) (.inl hn)
  have hclose : uartClose host' w.2.1 port rd'.state = uartClose host w.2.1 port rd.state := by
    rw [hstate]
    exact uartClose_alike h w.2.1 rd.state port
  refine ⟨?_, hcopies, ?_, congrArg Reply.dev hclose, congrArg Reply.state hclose⟩
  · show (if !rd'.done then 1 else if (uartClose host' w.2.1 port rd'.state).ret ≠ .ok then 1 else
      if rd'.rxTotal ≠ payload.length ∨ rd'.rx.take payload.length ≠ payload then 1 else 0) = _
    rw [hdone, hclose, if_congr hcompare rfl rfl]
  · show [_] ++ [_] ++ rd'.calls ++ [.uartClose port (uartClose host' w.2.1 port rd'.state).ret] = _
    rw [hcalls, hclose]

/-! ### The scan -/

/-- Both hosts read the same event. -/
theorem bleReadEvent_alike {ret : Result} {out : Out} {s₁ : σ}
    (hread : bleReadEvent host dev (eventOut host s) MAX_FRAME_LEN s = (ret, out, s₁)) :
    ∃ out', bleReadEvent host' dev (eventOut host' s) MAX_FRAME_LEN s = (ret, out', s₁) ∧
      (ret = .ok → ∀ reports, scanEvent reports (out'.header.getD .zero) (out'.payload.getD []) (out'.len.getD 0) =
        scanEvent reports (out.header.getD .zero) (out.payload.getD []) (out.len.getD 0)) := by
  obtain ⟨out', hread', hstored⟩ := receive_alike h dev s (acceptEvent_onFrame 512) (acceptEvent_stores 512)
    (acceptEvent_heedless 512) (eventOut host s) (eventOut host' s) rfl hread
  refine ⟨out', hread', fun hok reports => ?_⟩
  obtain ⟨f, rfl, rfl⟩ := hstored hok
  exact (scanEvent_stored host' reports f s).trans (scanEvent_stored host reports f s).symm

/-- **The loop of the scan** prints only what it has read. -/
theorem scanLoop_alike (endTime : ℤ) (clock : List ℤ) : ∀ (reports : UInt32) (s : σ),
    scanLoop host' dev endTime clock reports s = scanLoop host dev endTime clock reports s := by
  induction clock with
  | nil => exact fun _ _ => rfl
  | cons now clock ih =>
    intro reports s
    by_cases hnow : now ≤ endTime
    · rcases hread : bleReadEvent host dev (eventOut host s) MAX_FRAME_LEN s with ⟨ret, out, s₁⟩
      obtain ⟨out', hread', hevent⟩ := bleReadEvent_alike h dev s hread
      by_cases htimeout : ret = .errTimeout
      · subst htimeout
        rw [scanLoop_timeout hnow hread, scanLoop_timeout hnow hread', ih]
      by_cases hret : ret = .ok
      · subst hret
        rw [scanLoop_event hnow hread, scanLoop_event hnow hread', hevent rfl, ih]
      · rw [scanLoop_error hnow hread htimeout hret, scanLoop_error hnow hread' htimeout hret]
    · rw [scanLoop_over hnow, scanLoop_over hnow]

theorem bleSetScanParam_alike (interval window duration : UInt16) (mode active whiteList : UInt8) :
    bleSetScanParam host' dev interval window duration mode active whiteList s =
      bleSetScanParam host dev interval window duration mode active whiteList s :=
  Call.run_alike h dev s (c := .bleTransact BLE_SET_SCAN_PARAM
    (some (scanParamBytes interval window duration mode active whiteList)) 9 none 0 none) (proper_some _)

theorem bleScanStart_alike : bleScanStart host' dev s = bleScanStart host dev s :=
  Call.run_alike h dev s (c := .bleTransact BLE_SCAN_START none 0 none 0 none) proper_none

theorem bleScanStop_alike : bleScanStop host' dev s = bleScanStop host dev s :=
  Call.run_alike h dev s (c := .bleTransact BLE_SCAN_STOP none 0 none 0 none) proper_none

theorem bleGetCap_alike (cap cap' : BleCap) :
    SameReply id (bleGetCap host dev (some cap) s) (bleGetCap host' dev (some cap') s) := by
  obtain ⟨t, ht⟩ := transact_taken h dev ChannelType.bleMgmt.code 0 MsgType.cmd.code BLE_GET_CAP proper_none s
  exact query_alike (fun buf => (ht _ 8).1) (fun buf => (ht _ 8).2) parseBleCap dev cap cap'

theorem cmdBleScan_alike (secondsText : Option Bytes) (clock : List ℤ) :
    cmdBleScan host' dev secondsText clock s = cmdBleScan host dev secondsText clock s := by
  obtain ⟨hret, hdev, hstate, hout⟩ :=
    bleGetCap_alike h dev s (parseBleCap (host.stack s 8)) (parseBleCap (host'.stack s 8))
  unfold cmdBleScan
  dsimp only
  rw [hret, hdev, hstate]
  set c := bleGetCap host dev (some (parseBleCap (host.stack s 8))) s
  by_cases hcap : c.ret ≠ .ok
  · rw [if_pos hcap, if_pos hcap]
  rw [if_neg hcap, if_neg hcap, show (bleGetCap host' dev _ s).out = c.out from hout (not_not.mp hcap)]
  simp only [bleSetScanParam_alike h, bleScanStart_alike h, bleScanStop_alike h, scanLoop_alike h]

/-! ### The debug transfer -/

theorem debugBulkTransfer_alike (endpoint : Endpoint) (data : Option Bytes) (length : ℤ) (transferred : Option ℕ)
    (timeoutMs : ℕ) (status : Option LibusbError) :
    debugBulkTransfer host' endpoint data length transferred timeoutMs status s =
      debugBulkTransfer host endpoint data length transferred timeoutMs status s := by
  unfold debugBulkTransfer
  simp only [h.bulkIn, h.bulkOut]

/-- What goes out is all that counts of the buffer. -/
theorem debugBulkTransfer_sent {data data' : Bytes} {n : ℕ} (hsame : data'.take n = data.take n) (timeoutMs : ℕ) :
    let o := debugBulkTransfer host .frameOut (some data) n (some 0) timeoutMs (some .success) s
    let o' := debugBulkTransfer host' .frameOut (some data') n (some 0) timeoutMs (some .success) s
    o'.ret = o.ret ∧ o'.transferred = o.transferred ∧ o'.libusbStatus = o.libusbStatus ∧ o'.state = o.state := by
  intro o o'
  rw [show o' = debugBulkTransfer host .frameOut (some data') n (some 0) timeoutMs (some .success) s from
    debugBulkTransfer_alike h s ..]
  unfold o debugBulkTransfer
  dsimp only
  by_cases hn : (n : ℤ) ≤ 0
  · rw [if_pos hn, if_pos hn]
    exact ⟨rfl, rfl, rfl, rfl⟩
  · rw [if_neg hn, if_neg hn, Int.toNat_natCast, hsame]
    exact ⟨rfl, rfl, rfl, rfl⟩

theorem debugResponse_alike (inBytes : Bytes) (n : ℕ) (lines : List Line) :
    debugResponse host' dev inBytes n lines s = debugResponse host dev inBytes n lines s := by
  unfold debugResponse
  simp only [debugBulkTransfer_alike h]

theorem cmdDebugXfer_alike : cmdDebugXfer host' dev s = cmdDebugXfer host dev s := by
  obtain ⟨hret, hbuilt⟩ := buildFrame_alike (debugHeader dev.nextSeq) proper_none (host.length_stack s 512).ge
    (host'.length_stack s 512).ge
  unfold cmdDebugXfer
  dsimp only
  set b := buildFrame (host.stack s 512) 512 0 (debugHeader dev.nextSeq) none 0
  set b' := buildFrame (host'.stack s 512) 512 0 (debugHeader dev.nextSeq) none 0
  have hb : buildFrame (host.stack s MAX_FRAME_LEN) MAX_FRAME_LEN 0 (debugHeader (nextSeq dev).1) none 0 = b := rfl
  have hb' : buildFrame (host'.stack s MAX_FRAME_LEN) MAX_FRAME_LEN 0 (debugHeader (nextSeq dev).1) none 0 = b' := rfl
  rw [hb, hb', hret]
  by_cases hok : b.ret ≠ .ok
  · rw [if_pos hok, if_pos hok]
  obtain ⟨hlen, -, hdst⟩ := hbuilt (not_not.mp hok)
  obtain ⟨ho, htransferred, hstatus, hstate⟩ := debugBulkTransfer_sent h s hdst (nextSeq dev).2.timeoutMs
  rw [if_neg hok, if_neg hok, hlen, hdst, ho, htransferred, hstatus, hstate]
  simp only [debugBulkTransfer_alike h, debugResponse_alike h]

/-! ### The program -/

theorem Verb.run_alike (verb : Verb) (args : List Bytes) (clock : List ℤ) :
    verb.run host' dev args clock s = verb.run host dev args clock s := by
  cases verb with
  | probe => exact congrArg (fun r => some (Cmd.outcome r)) (cmdProbe_alike h dev s)
  | debugXfer => exact congrArg (fun r => some (Cmd.outcome r)) (cmdDebugXfer_alike h dev s)
  | heartbeat => exact congrArg (fun r => some (Cmd.outcome r)) (cmdHeartbeat_alike h dev s _)
  | uartCap =>
    unfold Verb.run
    simp only [cmdUartCap_alike h]
  | uartOpen =>
    unfold Verb.run cmdUartOpen
    simp only [uartOpen_alike h]
  | uartClose =>
    unfold Verb.run cmdUartClose
    simp only [uartClose_alike h]
  | uartLoopback =>
    unfold Verb.run
    have hsame (port : UInt8) :
        (cmdUartLoopback host' dev port (args[1]?.map baudOf) (args.getD 2 (text "ch32v208-loopback-0")) s).outcome =
        (cmdUartLoopback host dev port (args[1]?.map baudOf) (args.getD 2 (text "ch32v208-loopback-0")) s).outcome := by
      obtain ⟨hcode, -, -, hdev, hstate⟩ := cmdUartLoopback_alike h dev s port (args[1]?.map baudOf)
        (args.getD 2 (text "ch32v208-loopback-0"))
      unfold Loopback.outcome
      rw [hcode, hdev, hstate]
    simp only [hsame]
  | bleScan =>
    unfold Verb.run
    simp only [cmdBleScan_alike h]

/-- **The tool ignores the stack.** On two hosts that differ only in what is on
the stack every command prints the same lines and leaves the same, a loopback
makes the same calls and copies, and the program exits with the same code. -/
theorem tool_ignores_stack :
    cmdProbe host' dev s = cmdProbe host dev s ∧
      cmdDebugXfer host' dev s = cmdDebugXfer host dev s ∧
      (∀ text, cmdHeartbeat host' dev text s = cmdHeartbeat host dev text s) ∧
      (∀ port, cmdUartCap host' dev port s = cmdUartCap host dev port s) ∧
      (∀ port baud, cmdUartOpen host' dev port baud s = cmdUartOpen host dev port baud s) ∧
      (∀ port, cmdUartClose host' dev port s = cmdUartClose host dev port s) ∧
      (∀ port baud payload, let r := cmdUartLoopback host dev port baud payload s
        let r' := cmdUartLoopback host' dev port baud payload s
        r'.code = r.code ∧ r'.copies = r.copies ∧ r'.calls = r.calls ∧ r'.dev = r.dev ∧ r'.state = r.state) ∧
      (∀ seconds clock, cmdBleScan host' dev seconds clock s = cmdBleScan host dev seconds clock s) ∧
      ∀ ohost argv clock, main host' ohost argv clock s = main host ohost argv clock s := by
  refine ⟨cmdProbe_alike h dev s, cmdDebugXfer_alike h dev s, cmdHeartbeat_alike h dev s, cmdUartCap_alike h dev s,
    ?_, ?_,
    cmdUartLoopback_alike h dev s, cmdBleScan_alike h dev s, fun ohost argv clock => ?_⟩
  · intro port baud
    unfold cmdUartOpen
    dsimp only
    rw [uartOpen_alike h]
  · intro port
    unfold cmdUartClose
    rw [uartClose_alike h]
  · unfold main
    simp only [Verb.run_alike h]

end

/-- A payload that comes back, with ones on the stack instead of zeros. -/
theorem tool_ignores_stack_ones :
    (cmdUartLoopback (Pipe.host Stack.ones silent) freshDevice 3 none [0x41, 0x42] ⟨loopbackQueue 0x42, ()⟩).calls =
      (cmdUartLoopback (Pipe.host Stack.zero silent) freshDevice 3 none [0x41, 0x42]
        ⟨loopbackQueue 0x42, ()⟩).calls := by
  obtain ⟨-, -, -, -, -, -, hloopback, -⟩ :=
    tool_ignores_stack (Pipe.host_alike Stack.zero Stack.ones silent) freshDevice
    ⟨loopbackQueue 0x42, ()⟩
  exact (hloopback 3 none [0x41, 0x42]).2.2.1

end UsbMux
