/-
# The commands of the tool

The short commands of `ch32v208-mux-cli.c`: `probe`, `heartbeat`, `uart-cap`,
`uart-open` and `uart-close`, each one request or two. What a command prints
is kept as a record for each line (`Line`), with the values the line shows;
the wording is left out.

Over a link to a service the commands are calls of the service: `heartbeat`
prints what the service answers if that is 128 bytes at most
(`heartbeat_over_link`), and `probe` the two records the service encodes
(`probe_over_link`).

Key definitions: `Line`, `Cmd`, `Reply.command`, `cmdProbe`,
`cmdHeartbeat`, `Device.still`, `heartbeatOf`, `Service.heartbeat`.
Key theorems: `query_direct`, `cmdHeartbeat_takes`, `heartbeat_over_link`,
`probe_over_link`.
-/
import UsbMux.Service
import UsbMux.Args

namespace UsbMux

open Buffer

variable {σ δ α : Type}

/-! ### Commands -/

/-- The requests whose failure the tool reports. -/
inductive Op
  | getDevInfo | getCaps | heartbeat | uartGetPortCap | uartOpen | uartClose
  | bleGetCap | bleSetScanParam | bleScanStart | bleScanStop
  deriving DecidableEq, Repr

/-- A line the tool prints, with what it shows. -/
inductive Line
  /-- A request failed: the first word of the line, and the result's name. -/
  | failed (op : Op) (ret : Result)
  | devInfo (info : DevInfo)
  | caps (caps : Caps)
  | heartbeat (responseLen : ℕ) (response : Bytes)
  | portCap (cap : PortCap)
  | uartOpened (port : UInt8) (baudrate : UInt32)
  | uartClosed (port : UInt8)
  | bleCap (cap : BleCap)
  | scanStarted (seconds : ℕ)
  | scan (number : UInt32) (result : ScanResult)
  | scanParseFailed (ret : Result)
  | event (chType chId opcode : UInt8) (payloadLen : ℕ)
  | eventReadFailed (ret : Result)
  | scanStopped (reports : UInt32)
  | buildFailed (ret : Result)
  | timeout (ms : ℕ)
  /-- The frame of `debug-xfer`, before it is sent. -/
  | sending (frame : Bytes)
  | bulkOut (ret : Result) (status : LibusbError) (transferred : ℕ)
  | bulkIn (ret : Result) (status : LibusbError) (transferred : ℕ)
  | bulkInRemainder (ret : Result) (status : LibusbError) (transferred : ℕ)
  | raw (bytes : Bytes)
  | combined (bytes : Bytes)
  | decoded (ret : Result)
  | response (header : Header)
  deriving DecidableEq, Repr

/-- What a command leaves: its exit code, the lines it prints, the device and
the host. -/
structure Cmd (σ : Type) where
  code : ℕ
  lines : List Line
  dev : Device
  state : σ

/-- How a command ends with its last request: it reports that it failed, or
prints what it got. -/
def Reply.command (op : Op) (print : α → List Line) (r : Reply σ α) : Cmd σ :=
  if r.ret ≠ .ok then ⟨1, [.failed op r.ret], r.dev, r.state⟩ else ⟨0, print r.out, r.dev, r.state⟩

variable (host : Host σ)

/-- `cmd_probe`. -/
def cmdProbe (dev : Device) (s : σ) : Cmd σ :=
  let i := sysGetDevInfo host dev (some (parseDevInfo (host.stack s 8))) s
  if i.ret ≠ .ok then ⟨1, [.failed .getDevInfo i.ret], i.dev, i.state⟩
  else (sysGetCaps host i.dev (some (parseCaps (host.stack i.state 8))) i.state).command .getCaps
    fun caps => i.out.toList.map .devInfo ++ caps.toList.map .caps

/-- `cmd_heartbeat`; `text` is the string up to its NUL. -/
def cmdHeartbeat (dev : Device) (text : Bytes) (s : σ) : Cmd σ :=
  (sysHeartbeat host dev (some text) text.length (some (host.stack s 128)) 128 (some 0) s).command .heartbeat
    fun out => [.heartbeat (out.len.getD 0) ((out.payload.getD []).take (out.len.getD 0))]

/-- `cmd_uart_cap`. -/
def cmdUartCap (dev : Device) (port : UInt8) (s : σ) : Cmd σ :=
  (uartGetPortCap host dev port (some (parsePortCap (host.stack s 12))) s).command .uartGetPortCap
    fun cap => cap.toList.map .portCap

/-- `cmd_uart_open`; `baud` is the number its argument reads as, if there is
one. -/
def cmdUartOpen (dev : Device) (port : UInt8) (baud : Option UInt32) (s : σ) : Cmd σ :=
  let line : LineCoding := ⟨baud.getD 115200, 8, 0, 1⟩
  (uartOpen host dev port (some line) s).command .uartOpen fun _ => [.uartOpened port line.baudrate]

/-- The branch of `main` for `uart-close`. -/
def cmdUartClose (dev : Device) (port : UInt8) (s : σ) : Cmd σ :=
  (uartClose host dev port s).command .uartClose fun _ => [.uartClosed port]

/-! ### How commands end -/

/-- The device but for its counter. -/
def Device.still (dev : Device) : Device := { dev with nextSeq := 0 }

@[simp] theorem nextSeq_still (dev : Device) : (nextSeq dev).2.still = dev.still := rfl

theorem muxClose_still (dev : Device) : muxClose dev.still = muxClose dev := rfl

theorem Reply.command_code {op : Op} {print : α → List Line} (r : Reply σ α) :
    (r.command op print).code = 0 ∧ r.ret = .ok ∨ (r.command op print).code = 1 ∧ r.ret ≠ .ok := by
  unfold Reply.command
  by_cases h : r.ret = .ok
  · exact .inl ⟨by rw [if_neg (not_not.mpr h)], h⟩
  · exact .inr ⟨by rw [if_pos h], h⟩

theorem Reply.command_code_iff {op : Op} {print : α → List Line} (r : Reply σ α) :
    (r.command op print).code = 0 ↔ r.ret = .ok := by
  rcases r.command_code with ⟨hzero, hok⟩ | ⟨hone, hbad⟩
  · exact iff_of_true hzero hok
  · exact iff_of_false (by rw [hone]; exact Nat.one_ne_zero) hbad

theorem Reply.command_code_eq {op : Op} {print : α → List Line} (r : Reply σ α) :
    (r.command op print).code = if r.ret = .ok then 0 else 1 := by
  unfold Reply.command
  by_cases h : r.ret = .ok
  · rw [if_neg (not_not.mpr h), if_pos h]
  · rw [if_pos h, if_neg h]

@[simp] theorem Reply.command_dev (op : Op) (print : α → List Line) (r : Reply σ α) :
    (r.command op print).dev = r.dev := by
  unfold Reply.command
  split <;> rfl

@[simp] theorem Reply.command_state (op : Op) (print : α → List Line) (r : Reply σ α) :
    (r.command op print).state = r.state := by
  unfold Reply.command
  split <;> rfl

theorem Reply.command_line (op : Op) (line : Line) (r : Reply σ α) :
    ∃ last, (r.command op fun _ => [line]).lines = [last] := by
  unfold Reply.command
  split
  · exact ⟨_, rfl⟩
  · exact ⟨_, rfl⟩

theorem Reply.command_of_ok {op : Op} {print : α → List Line} {r : Reply σ α} (h : r.ret = .ok) :
    r.command op print = ⟨0, print r.out, r.dev, r.state⟩ := if_neg (not_not.mpr h)

/-! ### Queries of a service -/

/-- What a caller with a buffer gets from the answer to a command. -/
theorem Service.hand_some (S : Service δ) (h : Header) (p : Bytes) (d : δ) (capacity : ℕ) (buf : Bytes) (n : ℕ) :
    let answer := (S.serve h p d).2.1
    let v := S.hand h p d capacity ⟨none, some buf, some n⟩
    (v.1 = .ok ↔ (S.serve h p d).1 = DEV_STATUS_OK ∧ answer.length ≤ capacity) ∧
      (v.1 = .ok → v.2 = ⟨none, some (writeAt buf 0 answer), some answer.length⟩) := by
  intro answer v
  have hv : v = if (S.serve h p d).1 ≠ DEV_STATUS_OK then (.errDeviceStatus, ⟨none, some buf, some n⟩)
      else if answer.length > capacity then (.errOverflow, ⟨none, some buf, some n⟩)
      else (.ok, ⟨none, some (writeAt buf 0 answer), some answer.length⟩) := by
    unfold v
    unfold Service.hand
    dsimp only
    rw [if_neg (show ¬(answer ≠ [] ∧ (some buf).isNone = true) from fun h => by cases h.2)]
    rfl
  rw [hv]
  split_ifs with hstatus hlong
  · exact ⟨iff_of_false (by simp) fun h => hstatus h.1, fun h => by cases h⟩
  · exact ⟨iff_of_false (by simp) fun h => absurd h.2 (by omega), fun h => by cases h⟩
  · exact ⟨iff_of_true rfl ⟨not_not.mp hstatus, by omega⟩, fun _ => rfl⟩

variable (stack : Stack) (W : Transport)

/-- What a query makes of the reply to its request. -/
theorem query_of_reply {ρ : Type} {host : Host σ} {call : Out → ℕ → σ → Reply σ Out} {size : ℕ} {dev dev' : Device}
    {s s' : σ} {ret : Result} {out : Out}
    (h : call ⟨none, some (host.stack s size), some 0⟩ size s = ⟨ret, out, dev', s'⟩)
    (parse : Bytes → ρ) (record : ρ) :
    query host call size parse dev (some record) s =
      if ret ≠ .ok then ⟨ret, some record, dev', s'⟩
      else if out.len ≠ some size then ⟨.errProto, some record, dev', s'⟩
      else ⟨.ok, out.payload.map parse, dev', s'⟩ := by
  unfold query
  rw [if_neg (by simp), h]

/-- **A query over a link to a device that answers** succeeds exactly when the
service answers with a record's bytes, and then reads them. -/
theorem query_direct {ρ : Type} (S : Service δ) {react : React δ} {s : Link δ} (hs : s.AtRest) (dev : Device)
    (chType chId opcode : UInt8)
    (hreact : S.AnswersThen react (request dev.nextSeq chType chId MsgType.cmd.code opcode 0) fun _ => []) (size : ℕ)
    (parse : Bytes → ρ) (record : ρ) :
    let a := S.serve (request dev.nextSeq chType chId MsgType.cmd.code opcode 0) [] s.device
    let r := query (Link.host stack W react) (transact (Link.host stack W react) dev chType chId MsgType.cmd.code
      opcode none 0) size parse dev (some record) s
    (r.ret = .ok ↔ a.1 = DEV_STATUS_OK ∧ a.2.1.length = size) ∧ (r.ret = .ok → r.out = some (parse a.2.1)) ∧
      r.dev = (nextSeq dev).2 ∧ r.state.AtRest ∧ r.state.device = a.2.2 := by
  intro a r
  have ht := hs.shows.transact stack W react dev chType chId MsgType.cmd.code opcode proper_none
    ⟨none, some (stack.bytes size), some 0⟩ size
  rw [S.transact_then dev chType chId opcode fits_none hreact, S.transact_hand dev chType chId opcode fits_none] at ht
  rcases hcall : transact (Link.host stack W react) dev chType chId MsgType.cmd.code opcode none 0
    ⟨none, some (stack.bytes size), some 0⟩ size s with ⟨ret, out, dev', s'⟩
  have hr : r = _ := query_of_reply hcall parse record
  rw [hcall] at ht
  obtain ⟨hret, hout, hdev, hshows⟩ := ht
  obtain ⟨hrest, hdevice⟩ := Link.Shows.atRest hshows
  have hstate : r.dev = (nextSeq dev).2 ∧ r.state = s' := by
    rw [hr]
    split_ifs <;> exact ⟨hdev, rfl⟩
  suffices hrecord : (r.ret = .ok ↔ a.1 = DEV_STATUS_OK ∧ a.2.1.length = size) ∧
      (r.ret = .ok → r.out = some (parse a.2.1)) from
    ⟨hrecord.1, hrecord.2, hstate.1, hstate.2 ▸ hrest, hstate.2 ▸ hdevice⟩
  obtain ⟨hok, hstored⟩ := S.hand_some (request dev.nextSeq chType chId MsgType.cmd.code opcode 0) [] s.device size
    (stack.bytes size) 0
  set v := S.hand (request dev.nextSeq chType chId MsgType.cmd.code opcode 0) [] s.device size
    ⟨none, some (stack.bytes size), some 0⟩
  rw [← show ret = v.1 from hret] at hok hstored
  by_cases hfine : ret = .ok
  · obtain ⟨hstatus, hle⟩ := hok.mp hfine
    obtain rfl : out = ⟨none, some (writeAt (stack.bytes size) 0 a.2.1), some a.2.1.length⟩ :=
      Eq.trans (show out = v.2 from hout) (hstored hfine)
    rw [if_neg (not_not.mpr hfine)] at hr
    by_cases hlen : a.2.1.length = size
    · have hbuf : writeAt (stack.bytes size) 0 a.2.1 = a.2.1 := by
        have hdrop : (stack.bytes size).drop size = [] := List.drop_eq_nil_of_le (stack.length_bytes size).le
        rw [writeAt_zero, hlen, hdrop, List.append_nil]
      rw [if_neg (by rw [hlen]; simp), hbuf] at hr
      rw [hr]
      exact ⟨iff_of_true rfl ⟨hstatus, hlen⟩, fun _ => rfl⟩
    · rw [if_pos (by simpa using hlen)] at hr
      have hbad : r.ret ≠ .ok := by
        rw [hr]
        exact Result.noConfusion
      exact ⟨iff_of_false hbad fun h => hlen h.2, fun h => absurd h hbad⟩
  · rw [if_pos hfine] at hr
    have hbad : r.ret ≠ .ok := by
      rw [hr]
      exact hfine
    exact ⟨iff_of_false hbad fun h => hfine (hok.mpr ⟨h.1, h.2.le⟩), fun h => absurd h hbad⟩

/-! ### Heartbeats -/

/-- The header of the command of `heartbeat`. -/
def heartbeatRequest (seq : UInt16) (text : Bytes) : Header :=
  request seq ChannelType.sys.code 0 MsgType.cmd.code SYS_HEARTBEAT text.length

/-- The exit code and the lines of `heartbeat` when it takes the frame for the
answer to its command, with `buf` on the stack. -/
def heartbeatOf (seq : UInt16) (buf : Bytes) (f : Frame) : ℕ × List Line :=
  let v := acceptResponse seq ChannelType.sys.code 0 SYS_HEARTBEAT 128 f.header f.bytes ⟨none, some buf, some 0⟩
  if v.1 ≠ .ok then (1, [.failed .heartbeat v.1])
  else (0, [.heartbeat (v.2.len.getD 0) ((v.2.payload.getD []).take (v.2.len.getD 0))])

/-- `heartbeat` with the service itself. -/
def Service.heartbeat (S : Service δ) (seq : UInt16) (text : Bytes) (d : δ) : (ℕ × List Line) × δ :=
  let (status, answer, d) := S.serve (heartbeatRequest seq text) text d
  (if status ≠ DEV_STATUS_OK then (1, [.failed .heartbeat .errDeviceStatus])
    else if answer.length > 128 then (1, [.failed .heartbeat .errOverflow])
    else (0, [.heartbeat answer.length answer]), d)

/-- **An answer prints the same whichever `heartbeat` takes it.** -/
theorem heartbeatOf_answer (S : Service δ) (seq : UInt16) (buf text : Bytes) (d : δ) :
    heartbeatOf seq buf (S.answer (heartbeatRequest seq text) text d) = (S.heartbeat seq text d).1 := by
  have haccept := S.accept_answer (heartbeatRequest seq text) text d 128 ⟨none, some buf, some 0⟩
  unfold heartbeatOf
  rw [show acceptResponse seq ChannelType.sys.code 0 SYS_HEARTBEAT 128 _ _ _ = _ from haccept]
  unfold Service.hand Service.heartbeat
  dsimp only
  set a := S.serve (heartbeatRequest seq text) text d
  rw [if_neg (show ¬(a.2.1 ≠ [] ∧ (some buf).isNone = true) from fun h => by cases h.2)]
  by_cases hstatus : a.1 ≠ DEV_STATUS_OK
  · rw [if_pos hstatus, if_pos hstatus]
    rfl
  rw [if_neg hstatus, if_neg hstatus]
  by_cases hlong : a.2.1.length > 128
  · rw [if_pos hlong, if_pos hlong]
    rfl
  rw [if_neg hlong, if_neg hlong]
  show (0, [Line.heartbeat a.2.1.length ((writeAt buf 0 a.2.1).take a.2.1.length)]) = _
  rw [writeAt_zero, List.take_left' rfl]

theorem Service.heartbeat_code (S : Service δ) (seq : UInt16) (text : Bytes) (d : δ) :
    let a := S.serve (heartbeatRequest seq text) text d
    let r := (S.heartbeat seq text d).1
    (r.1 = 0 ↔ a.1 = DEV_STATUS_OK ∧ a.2.1.length ≤ 128) ∧ (r.1 = 0 → r.2 = [.heartbeat a.2.1.length a.2.1]) := by
  intro a r
  have hr : r = if a.1 ≠ DEV_STATUS_OK then (1, [.failed .heartbeat .errDeviceStatus])
    else if a.2.1.length > 128 then (1, [.failed .heartbeat .errOverflow])
    else (0, [.heartbeat a.2.1.length a.2.1]) := rfl
  by_cases hstatus : a.1 ≠ DEV_STATUS_OK
  · rw [hr, if_pos hstatus]
    exact ⟨iff_of_false Nat.one_ne_zero fun h => hstatus h.1, fun h => absurd h Nat.one_ne_zero⟩
  by_cases hlong : a.2.1.length > 128
  · rw [hr, if_neg hstatus, if_pos hlong]
    exact ⟨iff_of_false Nat.one_ne_zero fun h => Nat.not_le_of_lt hlong h.2, fun h => absurd h Nat.one_ne_zero⟩
  · rw [hr, if_neg hstatus, if_neg hlong]
    exact ⟨iff_of_true rfl ⟨not_not.mp hstatus, Nat.le_of_not_lt hlong⟩, fun _ => rfl⟩

/-- **What `heartbeat` does to a channel:** the answer joins the queue, and
the first frame is taken. -/
theorem cmdHeartbeat_takes (S : Service δ) {s : Link δ} {t : Channel δ} (h : s.Shows t) (dev : Device) {text : Bytes}
    (htext : text.length ≤ 488) {f : Frame} {fs : List Frame}
    (hqueue : t.pending ++ [S.answer (heartbeatRequest dev.nextSeq text) text t.device] = f :: fs) :
    let r := cmdHeartbeat (Link.host stack W S.react) dev text s
    (r.code, r.lines) = heartbeatOf dev.nextSeq (stack.bytes 128) f ∧
      r.state.Shows ⟨fs, (S.heartbeat dev.nextSeq text t.device).2⟩ := by
  intro r
  have hfits : Fits 512 (some text) text.length := ⟨by simp, htext, by omega⟩
  have ht := h.transact stack W S.react dev ChannelType.sys.code 0 MsgType.cmd.code SYS_HEARTBEAT (proper_some text)
    ⟨none, some (stack.bytes 128), some 0⟩ 128
  set r₀ := transact (Link.host stack W S.react) dev ChannelType.sys.code 0 MsgType.cmd.code SYS_HEARTBEAT (some text)
    text.length ⟨none, some (stack.bytes 128), some 0⟩ 128 s
  have hr : r = r₀.command .heartbeat
      fun out => [.heartbeat (out.len.getD 0) ((out.payload.getD []).take (out.len.getD 0))] := rfl
  have hdeliver := S.deliver_cmd dev ChannelType.sys.code 0 SYS_HEARTBEAT (some text) text.length (S.answersThen _) t
  rw [Option.getD_some, List.take_length] at hdeliver
  unfold Channel.transact at ht
  rw [refusal_of_fits hfits] at ht
  dsimp only at ht
  rw [show Channel.deliver _ _ _ _ = ⟨f :: fs, _⟩ from hdeliver.trans (congrArg (Channel.mk · _) hqueue)] at ht
  obtain ⟨hret, hout, -, hstate⟩ := ht
  refine ⟨?_, by rw [hr, Reply.command_state]; exact hstate⟩
  rw [hr]
  unfold Reply.command heartbeatOf
  dsimp only
  set v := acceptResponse dev.nextSeq ChannelType.sys.code 0 SYS_HEARTBEAT 128 f.header f.bytes
    ⟨none, some (stack.bytes 128), some 0⟩
  rw [show r₀.ret = v.1 from hret, show r₀.out = v.2 from hout]
  by_cases hok : v.1 ≠ .ok
  · rw [if_pos hok, if_pos hok]
  · rw [if_neg hok, if_neg hok]

/-- A text that does not fit a frame is refused. -/
theorem cmdHeartbeat_refused (S : Service δ) {s : Link δ} {t : Channel δ} (h : s.Shows t) (dev : Device) {text : Bytes}
    (htext : ¬text.length ≤ 488) :
    let r := cmdHeartbeat (Link.host stack W S.react) dev text s
    (r.code, r.lines) = (1, [.failed .heartbeat .errOverflow]) ∧ r.state.Shows t := by
  intro r
  have ht := h.transact stack W S.react dev ChannelType.sys.code 0 MsgType.cmd.code SYS_HEARTBEAT (proper_some text)
    ⟨none, some (stack.bytes 128), some 0⟩ 128
  have hrefusal : refusal (some text) text.length = some .errOverflow := by
    unfold refusal
    rw [if_neg (by simp), if_pos (show text.length > MAX_FRAME_LEN - HEADER_LEN from Nat.lt_of_not_le htext)]
  unfold Channel.transact at ht
  rw [hrefusal] at ht
  set r₀ := transact (Link.host stack W S.react) dev ChannelType.sys.code 0 MsgType.cmd.code SYS_HEARTBEAT (some text)
    text.length ⟨none, some (stack.bytes 128), some 0⟩ 128 s
  have hr : r = r₀.command .heartbeat
      fun out => [.heartbeat (out.len.getD 0) ((out.payload.getD []).take (out.len.getD 0))] := rfl
  obtain ⟨hret, -, -, hstate⟩ := ht
  rw [hr]
  unfold Reply.command
  rw [if_pos (by rw [hret]; exact Result.noConfusion), hret]
  exact ⟨rfl, hstate⟩

/-- **Heartbeats.** Over a link to a service `heartbeat` exits with 0 exactly
when the text fits a frame and the answer, with status OK, fits the 128 bytes
of its buffer; then it prints the answer. A text that fits reaches the service
once, whatever becomes of the answer, and one that does not never. -/
theorem heartbeat_over_link (S : Service δ) {s : Link δ} (hs : s.AtRest) (dev : Device) (text : Bytes) :
    let a := S.serve (request dev.nextSeq ChannelType.sys.code 0 MsgType.cmd.code SYS_HEARTBEAT text.length)
      text s.device
    let r := cmdHeartbeat (Link.host stack W S.react) dev text s
    (r.code = 0 ↔ text.length ≤ 488 ∧ a.1 = DEV_STATUS_OK ∧ a.2.1.length ≤ 128) ∧
      (r.code = 0 → r.lines = [.heartbeat a.2.1.length a.2.1]) ∧
      r.state.AtRest ∧ r.state.device = if text.length ≤ 488 then a.2.2 else s.device := by
  intro a r
  by_cases hfit : text.length ≤ 488
  · obtain ⟨hout, hstate⟩ := cmdHeartbeat_takes stack W S hs.shows dev hfit (List.nil_append _)
    rw [heartbeatOf_answer] at hout
    obtain ⟨hrest, hdevice⟩ := hstate.atRest
    obtain ⟨hcode, hlines⟩ := S.heartbeat_code dev.nextSeq text s.device
    rw [← hout] at hcode hlines
    rw [if_pos hfit]
    exact ⟨hcode.trans ⟨fun h => ⟨hfit, h⟩, fun h => h.2⟩, hlines, hrest, hdevice⟩
  · obtain ⟨hrefused, hstate⟩ := cmdHeartbeat_refused stack W S hs.shows dev hfit
    have hcode : r.code = 1 := congrArg Prod.fst hrefused
    obtain ⟨hrest, hdevice⟩ := hstate.atRest
    have hbad : r.code ≠ 0 := by
      rw [show r.code = 1 from hcode]
      exact Nat.one_ne_zero
    rw [if_neg hfit]
    exact ⟨iff_of_false hbad fun h => hfit h.1, fun h => absurd h hbad, hrest, hdevice⟩

/-- The device echoes a text of two bytes. -/
theorem heartbeat_over_link_echo :
    (cmdHeartbeat (Link.host Stack.zero Transport.bytewise echoService.react) freshDevice [0x68, 0x69]
        ⟨[], [], 0, 0⟩).code = 0 :=
  (heartbeat_over_link Stack.zero Transport.bytewise echoService (s := ⟨[], [], 0, 0⟩) ⟨rfl, rfl⟩ freshDevice
    [0x68, 0x69]).1.mpr ⟨by decide, by decide, by decide⟩

/-! ### Probing -/

/-- **Probing.** Over a link to a service `probe` exits with 0 exactly when
the service answers both queries with status OK and eight bytes, and then
prints the records these encode. The second query is made only if the first
succeeded. -/
theorem probe_over_link (S : Service δ) {s : Link δ} (hs : s.AtRest) (dev : Device) :
    let a := S.serve (request dev.nextSeq ChannelType.sys.code 0 MsgType.cmd.code SYS_GET_DEV_INFO 0) [] s.device
    let b := S.serve (request (nextSeq dev).2.nextSeq ChannelType.sys.code 0 MsgType.cmd.code SYS_GET_CAPS 0) [] a.2.2
    let r := cmdProbe (Link.host stack W S.react) dev s
    let first := a.1 = DEV_STATUS_OK ∧ a.2.1.length = 8
    (r.code = 0 ↔ first ∧ b.1 = DEV_STATUS_OK ∧ b.2.1.length = 8) ∧
      (r.code = 0 → r.lines = [.devInfo (parseDevInfo a.2.1), .caps (parseCaps b.2.1)]) ∧
      r.state.AtRest ∧ (first → r.state.device = b.2.2) ∧ (¬first → r.state.device = a.2.2) := by
  intro a b r first
  set i := sysGetDevInfo (Link.host stack W S.react) dev (some (parseDevInfo (stack.bytes 8))) s with hi
  obtain ⟨hret, hout, hdev, hrest, hdevice⟩ :
      (i.ret = .ok ↔ first) ∧ (i.ret = .ok → i.out = some (parseDevInfo a.2.1)) ∧
      i.dev = (nextSeq dev).2 ∧ i.state.AtRest ∧ i.state.device = a.2.2 :=
    query_direct stack W S hs dev ChannelType.sys.code 0 SYS_GET_DEV_INFO (S.answersThen _) 8 parseDevInfo
      (parseDevInfo (stack.bytes 8))
  by_cases hfirst : first
  · have hok := hret.mpr hfirst
    set c := sysGetCaps (Link.host stack W S.react) i.dev (some (parseCaps (stack.bytes 8))) i.state with hc
    have hr : r = c.command .getCaps fun caps => i.out.toList.map .devInfo ++ caps.toList.map .caps :=
      if_neg (not_not.mpr hok)
    have hquery := query_direct stack W S hrest i.dev ChannelType.sys.code 0 SYS_GET_CAPS (S.answersThen _) 8 parseCaps
      (parseCaps (stack.bytes 8))
    rw [hdev, hdevice] at hquery
    rw [hdev] at hc
    obtain ⟨hcret, hcout, -, hcrest, hcdevice⟩ : (c.ret = .ok ↔ b.1 = DEV_STATUS_OK ∧ b.2.1.length = 8) ∧
        (c.ret = .ok → c.out = some (parseCaps b.2.1)) ∧ c.dev = (nextSeq (nextSeq dev).2).2 ∧ c.state.AtRest ∧
        c.state.device = b.2.2 := hc ▸ hquery
    have hcode : r.code = 0 ↔ c.ret = .ok := by
      rw [hr]
      exact c.command_code_iff
    have hstate : r.state = c.state := by rw [hr, Reply.command_state]
    rw [hstate]
    refine ⟨?_, fun h => ?_, hcrest, fun _ => hcdevice, fun h => absurd hfirst h⟩
    · rw [hcode, hcret]
      exact ⟨fun h => ⟨hfirst, h⟩, fun h => h.2⟩
    · have hfine := hcode.mp h
      rw [hr, Reply.command_of_ok hfine, hout hok, hcout hfine]
      rfl
  · have hbad : i.ret ≠ .ok := fun h => hfirst (hret.mp h)
    have hr : r = ⟨1, [.failed .getDevInfo i.ret], i.dev, i.state⟩ := if_pos hbad
    have hcode : r.code ≠ 0 := by
      rw [hr]
      exact Nat.one_ne_zero
    rw [show r.state = i.state by rw [hr]]
    exact ⟨iff_of_false hcode fun h => hfirst h.1, fun h => absurd h hcode, hrest, fun h => absurd h hfirst,
      fun _ => hdevice⟩

/-- A service that answers with as many zeros as the queries want. -/
def zeroService : Service ℕ where
  serve _ _ d := (DEV_STATUS_OK, List.replicate 8 0, d + 1)
  absorb _ _ d := d
  length_le _ _ _ := Nat.le_of_ble_eq_true rfl

theorem probe_over_link_zero :
    (cmdProbe (Link.host Stack.zero Transport.bytewise zeroService.react) freshDevice ⟨[], [], 0, 0⟩).code = 0 :=
  (probe_over_link Stack.zero Transport.bytewise zeroService (s := ⟨[], [], 0, 0⟩) ⟨rfl, rfl⟩ freshDevice).1.mpr
    ⟨⟨rfl, rfl⟩, rfl, rfl⟩

end UsbMux
