/-
# The loopback check over a link

A device with serial ports (`Ports`): a service that for the data it is given
sends back chunks, each in a DATA frame for the port. `cmd_uart_loopback`
over a link to such a device exits with 0 exactly when the device carries out
UART_OPEN and UART_CLOSE and what comes back is the payload, cut into chunks
none of which is empty (`loopback_over_link`). A chunk too many is still
pending when the port is closed, and spoils the close.

Key definitions: `Ports`, `Ports.react`, `cmdUartLoopback_code`.
Key theorems: `Ports.deliver_data`, `readChunks_shows`,
`loopback_over_link`.
-/
import UsbMux.Service
import UsbMux.Loopback

namespace UsbMux

open Buffer

variable {δ : Type}

/-! ### Devices with ports -/

/-- Bytes that go into one frame. -/
abbrev Chunk : Type := { b : Bytes // b.length ≤ 488 }

/-- A service with ports: what comes back for data, given by its header and
payload. -/
structure Ports (δ : Type) extends Service δ where
  back : Header → Bytes → δ → List Chunk

/-- A chunk on its way to the host. -/
def chunkFrame (port : UInt8) (c : Chunk) : Frame := Frame.build (dataHeader port 0) c.1 c.2

/-- The bytes of chunks, one after the other. -/
def bytesOf (chunks : List Chunk) : Bytes := chunks.flatMap Subtype.val

def Ports.react (P : Ports δ) : React δ := fun h bytes d =>
  let (fs, d') := P.toService.react h bytes d
  if h.msgType = MsgType.data.code then (fs ++ (P.back h (bytes.drop HEADER_LEN) d).map (chunkFrame h.chId), d')
  else (fs, d')

@[simp] theorem bytesOf_nil : bytesOf [] = [] := rfl

@[simp] theorem bytesOf_cons (c : Chunk) (cs : List Chunk) : bytesOf (c :: cs) = c.1 ++ bytesOf cs := rfl

theorem bytesOf_eq_nil {chunks : List Chunk} (hne : ∀ c ∈ chunks, c.1 ≠ []) (h : (bytesOf chunks).length = 0) :
    chunks = [] := by
  rcases chunks with _ | ⟨c, cs⟩
  · rfl
  · have hc := List.length_pos_iff.mpr (hne c List.mem_cons_self)
    rw [bytesOf_cons, List.length_append] at h
    omega

/-- To a command the device reacts as the service. -/
theorem Ports.answersThen (P : Ports δ) (seq : UInt16) (chType chId opcode : UInt8) (payloadLen : ℕ) :
    P.AnswersThen P.react (request seq chType chId MsgType.cmd.code opcode payloadLen) fun _ => [] := by
  intro b d
  have hcmd : ¬(request seq chType chId MsgType.cmd.code opcode payloadLen).msgType = MsgType.data.code := by
    show ¬MsgType.cmd.code = MsgType.data.code
    decide
  rw [List.append_nil]
  unfold Ports.react
  exact if_neg hcmd

/-- Data given to a port, with nothing pending. -/
theorem Ports.deliver_data (P : Ports δ) (port : UInt8) (seq : UInt16) (payload : Bytes) (d : δ) :
    let w := (dataHeader port seq).forLen payload.length
    Channel.deliver P.react w (framed w (some payload) payload.length) ⟨[], d⟩ =
      ⟨(P.back w payload d).map (chunkFrame port), P.absorb w payload d⟩ := by
  intro w
  have hdata : w.msgType = MsgType.data.code := rfl
  have hcmd : ¬w.msgType = MsgType.cmd.code := by
    rw [hdata]
    decide
  have hdrop : (framed w (some payload) payload.length).drop HEADER_LEN = payload := by
    rw [drop_framed, Option.getD_some, List.take_length]
  unfold Channel.deliver Ports.react Service.react
  simp only [hdrop, if_neg hcmd, if_pos hdata, List.nil_append]
  rfl

/-! ### Reading the chunks -/

/-- A chunk is handed over. -/
theorem Channel.take_chunk (port : UInt8) (buf : Bytes) (c : Chunk) (fs : List Frame) (d : δ) :
    Channel.take (acceptData port 512) ⟨none, some buf, some 0⟩ ⟨chunkFrame port c :: fs, d⟩ =
      (.ok, ⟨none, some (writeAt buf 0 c.1), some c.1.length⟩, ⟨fs, d⟩) := by
  have hlen : (chunkFrame port c).header.payloadLen.toNat = c.1.length := forLen_payloadLen c.2
  have hpayload : ((chunkFrame port c).bytes.drop HEADER_LEN).take c.1.length = c.1 := by
    have hbytes : (chunkFrame port c).bytes.drop HEADER_LEN = c.1 := List.drop_left' (Header.length_image _ _)
    rw [hbytes, List.take_length]
  have hmatch : ¬((chunkFrame port c).header.chType ≠ ChannelType.uartData.code ∨
      (chunkFrame port c).header.chId ≠ port ∨ (chunkFrame port c).header.msgType ≠ MsgType.data.code) := by
    simp [chunkFrame, Frame.build, dataHeader, Header.forPayload, Header.forLen, Header.complete]
  have hfit := c.2
  have haccept : acceptData port 512 (chunkFrame port c).header (chunkFrame port c).bytes ⟨none, some buf, some 0⟩ =
      (.ok, ⟨none, some (writeAt buf 0 c.1), some c.1.length⟩) := by
    unfold acceptData
    rw [if_neg hmatch, if_neg (by omega), Out.store, hlen, hpayload]
    rfl
  simp only [Channel.take, haccept]

variable (stack : Stack) (W : Transport)

/-- What a read into a 512-byte array leaves of a link that shows chunks. -/
theorem uartRead_shows (react : React δ) {s : Link δ} {t : Channel δ} (h : s.Shows t) (dev : Device) (port : UInt8) :
    let out : Out := ⟨none, some (stack.bytes 512), some 0⟩
    let r := uartRead (Link.host stack W react) dev port (some (stack.bytes 512)) 512 (some 0) s
    let r' := t.take (acceptData port 512) out
    r.1 = r'.1 ∧ r.2.1 = r'.2.1 ∧ r.2.2.Shows r'.2.2 := by
  intro out r r'
  have hr : r = receive (Link.host stack W react) dev (acceptData port 512) out s := by
    unfold r uartRead
    rw [if_neg (by simp)]
  rw [hr]
  exact h.receive stack W react (acceptData_onFrame port 512) dev out

section Rounds

variable {σ : Type} {host : Host σ} {dev : Device} {port : UInt8} {payloadLen rxTotal : ℕ} {rx buf chunk : Bytes}
  {len : ℕ} {s s₁ : σ}

theorem readChunks_end (h : ¬rxTotal < payloadLen) :
    readChunks host dev port payloadLen rxTotal rx s = ⟨true, rxTotal, rx, [], [], s⟩ := by
  rw [readChunks, if_neg h]

theorem readChunks_stop {ret : Result} {out : Out} (h : rxTotal < payloadLen)
    (hread : uartRead host dev port (some (host.stack s 512)) 512 (some 0) s = (ret, out, s₁)) (hret : ret ≠ .ok) :
    readChunks host dev port payloadLen rxTotal rx s = ⟨false, rxTotal, rx, [], [.uartRead port ret []], s₁⟩ := by
  rw [readChunks, if_pos h, hread]
  exact if_pos hret

/-- A round whose read was OK. -/
theorem readChunks_round (h : rxTotal < payloadLen)
    (hread : uartRead host dev port (some (host.stack s 512)) 512 (some 0) s = (.ok, ⟨none, some buf, some len⟩, s₁))
    (hchunk : buf.take len = chunk) :
    readChunks host dev port payloadLen rxTotal rx s =
      if len = 0 ∨ rxTotal + len > 512 then ⟨false, rxTotal, rx, [], [.uartRead port .ok chunk], s₁⟩
      else
        let r := readChunks host dev port payloadLen (rxTotal + len) (writeAt rx rxTotal chunk) s₁
        { r with copies := (rxTotal, len) :: r.copies, calls := .uartRead port .ok chunk :: r.calls } := by
  rw [readChunks, if_pos h, hread]
  dsimp only [Option.getD_some]
  rw [if_neg (by simp), hchunk]

end Rounds

/-- **The read loop over a link** reads some of the chunks and leaves the
others. If it comes to its end those it has read were not empty and are in
`rx`; and it does so, and leaves none, if they are not empty and make up what
it waits for. -/
theorem readChunks_shows (react : React δ) (dev : Device) (port : UInt8) {payloadLen : ℕ} (hfit : payloadLen ≤ 512)
    (d : δ) : ∀ (chunks : List Chunk) (rxTotal : ℕ) (rx : Bytes) (s : Link δ),
    s.Shows ⟨chunks.map (chunkFrame port), d⟩ → rx.length = 512 → rxTotal ≤ 512 →
    let r := readChunks (Link.host stack W react) dev port payloadLen rxTotal rx s
    ∃ got left, chunks = got ++ left ∧ r.state.Shows ⟨left.map (chunkFrame port), d⟩ ∧
      (r.done = true → (∀ c ∈ got, c.1 ≠ []) ∧ r.rxTotal = rxTotal + (bytesOf got).length ∧
        r.rx.take r.rxTotal = rx.take rxTotal ++ bytesOf got) ∧
      ((∀ c ∈ chunks, c.1 ≠ []) → rxTotal + (bytesOf chunks).length = payloadLen → r.done = true ∧ left = []) := by
  intro chunks
  induction chunks with
  | nil =>
    intro rxTotal rx s hs hrx hroom r
    by_cases hlt : rxTotal < payloadLen
    · -- there is nothing to read
      have hu := uartRead_shows stack W react hs dev port
      dsimp only at hu
      rcases hread : uartRead (Link.host stack W react) dev port (some (stack.bytes 512)) 512 (some 0) s with
        ⟨ret, out, s₁⟩
      rw [hread] at hu
      obtain ⟨hret, -, hstate⟩ := hu
      obtain rfl : ret = .errTimeout := hret
      have hr : r = ⟨false, rxTotal, rx, [], [.uartRead port .errTimeout []], s₁⟩ :=
        readChunks_stop hlt hread (by simp)
      refine ⟨[], [], rfl, by rw [hr]; exact hstate, fun h => ?_, fun _ htotal => ?_⟩
      · rw [hr] at h
        cases h
      · rw [bytesOf_nil, List.length_nil] at htotal
        omega
    · have hr : r = ⟨true, rxTotal, rx, [], [], s⟩ := readChunks_end hlt
      rw [hr]
      exact ⟨[], [], rfl, hs, fun _ => ⟨List.forall_mem_nil _, rfl, (List.append_nil _).symm⟩, fun _ _ => ⟨rfl, rfl⟩⟩
  | cons c cs ih =>
    intro rxTotal rx s hs hrx hroom r
    by_cases hlt : rxTotal < payloadLen
    · have hu := uartRead_shows stack W react hs dev port
      dsimp only at hu
      rw [List.map_cons, Channel.take_chunk] at hu
      rcases hread : uartRead (Link.host stack W react) dev port (some (stack.bytes 512)) 512 (some 0) s with
        ⟨ret, out, s₁⟩
      rw [hread] at hu
      obtain ⟨hret, hout, hstate⟩ := hu
      obtain rfl : ret = .ok := hret
      obtain rfl := hout
      have hchunk : (writeAt (stack.bytes 512) 0 c.1).take c.1.length = c.1 := by
        rw [writeAt_zero, List.take_left' rfl]
      by_cases hbad : c.1.length = 0 ∨ rxTotal + c.1.length > 512
      · have hr : r = ⟨false, rxTotal, rx, [], [.uartRead port .ok c.1], s₁⟩ :=
          (readChunks_round hlt hread hchunk).trans (if_pos hbad)
        refine ⟨[c], cs, rfl, by rw [hr]; exact hstate, fun h => ?_, fun hne htotal => ?_⟩
        · rw [hr] at h
          cases h
        · have hc := List.length_pos_iff.mpr (hne c List.mem_cons_self)
          rw [bytesOf_cons, List.length_append] at htotal
          omega
      · have hr : r = _ := (readChunks_round hlt hread hchunk).trans (if_neg hbad)
        obtain ⟨got, left, rfl, hshows, hdone, hall⟩ := ih (rxTotal + c.1.length) (writeAt rx rxTotal c.1) s₁ hstate
          ((length_writeAt (by omega)).trans hrx) (by omega)
        have hne : c.1 ≠ [] := List.length_pos_iff.mp (by omega)
        have htake : (writeAt rx rxTotal c.1).take (rxTotal + c.1.length) = rx.take rxTotal ++ c.1 :=
          take_writeAt (hrx ▸ hroom)
        rw [hr]
        refine ⟨c :: got, left, rfl, hshows, fun h => ?_, fun hall' htotal => ?_⟩
        · obtain ⟨hgot, htotal, hrx'⟩ := hdone h
          refine ⟨List.forall_mem_cons.mpr ⟨hne, hgot⟩, ?_, ?_⟩
          · rw [bytesOf_cons, List.length_append, ← Nat.add_assoc]
            exact htotal
          · rw [bytesOf_cons, ← List.append_assoc, ← htake]
            exact hrx'
        · rw [bytesOf_cons, List.length_append, ← Nat.add_assoc] at htotal
          exact hall (List.forall_mem_cons.mp hall').2 htotal
    · -- the loop has come to its end before this chunk
      have hr : r = ⟨true, rxTotal, rx, [], [], s⟩ := readChunks_end hlt
      rw [hr]
      refine ⟨[], c :: cs, rfl, hs, fun _ => ⟨List.forall_mem_nil _, rfl, (List.append_nil _).symm⟩,
        fun hne htotal => ?_⟩
      have hnil := bytesOf_eq_nil hne (by omega)
      cases hnil

/-! ### The command -/

/-- What decides the exit code of a payload that fits. -/
theorem cmdUartLoopback_code {σ : Type} (host : Host σ) (dev : Device) (port : UInt8) (baud : Option UInt32)
    {payload : Bytes} (hfit : payload.length ≤ 488) (s : σ) :
    let r := cmdUartLoopback host dev port baud payload s
    let o := uartOpen host dev port (some (loopbackLine baud)) s
    let w := uartWrite host o.dev port (some payload) payload.length o.state
    let rd := readChunks host w.2.1 port payload.length 0 (host.stack s 512) w.2.2
    let c := uartClose host w.2.1 port rd.state
    (r.code = 0 ↔ o.ret = .ok ∧ w.1 = .ok ∧ rd.done = true ∧ c.ret = .ok ∧ rd.rxTotal = payload.length ∧
      rd.rx.take payload.length = payload) ∧ (r.code = 0 → r.state = c.state) := by
  intro r o w rd c
  have hbig : ¬payload.length > MAX_FRAME_LEN - HEADER_LEN := Nat.not_lt_of_le hfit
  by_cases hopen : o.ret ≠ .ok
  · have hr : r = ⟨1, host.stack s 512, [], [.uartOpen port (loopbackLine baud) o.ret], o.dev, o.state⟩ :=
      (if_neg hbig).trans (if_pos hopen)
    have hcode : r.code ≠ 0 := by rw [hr]; exact Nat.one_ne_zero
    exact ⟨iff_of_false hcode fun h => hopen h.1, fun h => absurd h hcode⟩
  by_cases hwrite : w.1 ≠ .ok
  · have hr : r.code = 1 :=
      congrArg Loopback.code ((if_neg hbig).trans ((if_neg hopen).trans (if_pos hwrite)))
    have hcode : r.code ≠ 0 := by rw [hr]; exact Nat.one_ne_zero
    exact ⟨iff_of_false hcode fun h => hwrite h.2.1, fun h => absurd h hcode⟩
  · have hr : r = ⟨if !rd.done then 1 else if c.ret ≠ .ok then 1 else
        if rd.rxTotal ≠ payload.length ∨ rd.rx.take payload.length ≠ payload then 1 else 0, rd.rx, rd.copies,
        [.uartOpen port (loopbackLine baud) o.ret] ++ [.uartWrite port payload w.1] ++ rd.calls ++
          [.uartClose port c.ret], c.dev, c.state⟩ :=
      (if_neg hbig).trans ((if_neg hopen).trans (if_neg hwrite))
    rw [hr]
    simp only [exit_eq_zero, not_or, ne_eq, not_not, Bool.not_eq_true', Bool.not_eq_false, and_true]
    exact ⟨⟨fun h => ⟨not_not.mp hopen, not_not.mp hwrite, h⟩, fun h => h.2.2⟩, fun _ => trivial⟩

/-- A payload that does not fit is not sent. -/
theorem cmdUartLoopback_large {σ : Type} (host : Host σ) (dev : Device) (port : UInt8) (baud : Option UInt32)
    {payload : Bytes} (hbig : 488 < payload.length) (s : σ) :
    cmdUartLoopback host dev port baud payload s = ⟨2, host.stack s 512, [], [], dev, s⟩ := if_pos hbig

/-- A chunk left over is not the answer to a command. -/
theorem Ports.transact_behind (P : Ports δ) (dev : Device) (chType chId opcode : UInt8) (out : Out) (rspCapacity : ℕ)
    (port : UInt8) (b : Chunk) (fs : List Frame) (d : δ) :
    (Channel.transact P.react dev chType chId MsgType.cmd.code opcode none 0 out rspCapacity
      ⟨chunkFrame port b :: fs, d⟩).ret = .errProto := by
  have hmsg : (chunkFrame port b).header.msgType = MsgType.data.code := rfl
  rw [P.toService.transact_behind dev chType chId opcode fits_none (P.answersThen _ _ _ _ _) out rspCapacity _ fs d
    fun h => absurd (hmsg.symm.trans h.1) (by decide)]

/-- **The loopback check over a link.** However the wire takes and cuts the
frames, the command exits with 0 exactly when the payload fits a frame, the
device opens and closes the port, and what it sends back for the payload is
the payload, in chunks that are not empty. Then nothing is left on the link. -/
theorem loopback_over_link (P : Ports δ) {s : Link δ} (hs : s.AtRest) (dev : Device) (port : UInt8)
    (baud : Option UInt32) (payload : Bytes) :
    let line := lineCodingBytes (loopbackLine baud)
    let o := P.transact dev ChannelType.uartCtrl.code port MsgType.cmd.code UART_OPEN (some line) 8 ⟨none, none, none⟩ 0
      s.device
    let w := (dataHeader port o.dev.nextSeq).forLen payload.length
    let c := P.transact (nextSeq o.dev).2 ChannelType.uartCtrl.code port MsgType.cmd.code UART_CLOSE none 0
      ⟨none, none, none⟩ 0 (P.absorb w payload o.state)
    let chunks := P.back w payload o.state
    let r := cmdUartLoopback (Link.host stack W P.react) dev port baud payload s
    (r.code = 0 ↔ payload.length ≤ 488 ∧ o.ret = .ok ∧ c.ret = .ok ∧ (∀ b ∈ chunks, b.1 ≠ []) ∧
      bytesOf chunks = payload) ∧ (r.code = 0 → r.state.AtRest ∧ r.state.device = c.state) := by
  intro line o w c chunks r
  by_cases hfit : payload.length ≤ 488
  · have hline : ∀ p ∈ some line, 8 ≤ p.length := fun p hp => by
      obtain rfl := Option.mem_some.mp hp
      exact Nat.le_refl 8
    have hdata : ∀ p ∈ some payload, payload.length ≤ p.length := fun p hp => by
      obtain rfl := Option.mem_some.mp hp
      exact Nat.le_refl _
    -- the port is opened
    have hopen := hs.shows.transact stack W P.react dev ChannelType.uartCtrl.code port MsgType.cmd.code UART_OPEN hline
      ⟨none, none, none⟩ 0
    rw [P.transact_then dev _ _ _ (show Fits 512 (some line) 8 from ⟨by simp, by omega, by omega⟩)
      (P.answersThen _ _ _ _ _)]
      at hopen
    obtain ⟨hret, -, hdev, hopened⟩ := hopen
    set ro := uartOpen (Link.host stack W P.react) dev port (some (loopbackLine baud)) s with hro
    replace hret : ro.ret = o.ret := hret
    replace hdev : ro.dev = o.dev := hdev
    replace hopened : ro.state.Shows ⟨[], o.state⟩ := hopened
    -- the payload is written
    obtain ⟨hwret, hwdev, hwritten⟩ := hopened.uartWrite stack W P.react o.dev port hdata
    have hfits : Fits 512 (some payload) payload.length := ⟨by simp, hfit, by omega⟩
    have hsent : Channel.uartWrite P.react o.dev port (some payload) payload.length ⟨[], o.state⟩ =
        (.ok, (nextSeq o.dev).2, ⟨chunks.map (chunkFrame port), P.absorb w payload o.state⟩) := by
      unfold Channel.uartWrite
      rw [if_neg (by simp), refusal_of_fits hfits]
      exact congrArg (fun t => (Result.ok, (nextSeq o.dev).2, t)) (P.deliver_data port o.dev.nextSeq payload o.state)
    rw [hsent] at hwret hwdev hwritten
    obtain ⟨hcode, hstate⟩ := cmdUartLoopback_code (Link.host stack W P.react) dev port baud hfit s
    rw [← hro, hdev] at hcode hstate
    set rwr := uartWrite (Link.host stack W P.react) o.dev port (some payload) payload.length ro.state
    replace hwret : rwr.1 = .ok := hwret
    replace hwdev : rwr.2.1 = (nextSeq o.dev).2 := hwdev
    rw [hwdev] at hcode hstate
    -- chunks come back
    obtain ⟨got, left, hchunks, hleft, hdone, hall⟩ := readChunks_shows stack W P.react (nextSeq o.dev).2 port
      (show payload.length ≤ 512 by omega) _ chunks 0 (stack.bytes 512) rwr.2.2 hwritten (stack.length_bytes 512)
      (Nat.zero_le _)
    set rd := readChunks (Link.host stack W P.react) (nextSeq o.dev).2 port payload.length 0 (stack.bytes 512) rwr.2.2
    -- the port is closed
    have hclose := hleft.transact stack W P.react (nextSeq o.dev).2 ChannelType.uartCtrl.code port MsgType.cmd.code
      UART_CLOSE proper_none ⟨none, none, none⟩ 0
    set rc := uartClose (Link.host stack W P.react) (nextSeq o.dev).2 port rd.state
    have hcret : left = [] → rc.ret = c.ret ∧ rc.state.Shows ⟨[], c.state⟩ := by
      rintro rfl
      rw [List.map_nil, P.transact_then _ _ _ _ fits_none (P.answersThen _ _ _ _ _)] at hclose
      exact ⟨hclose.ret, hclose.state⟩
    have hcbad : left ≠ [] → rc.ret = .errProto := by
      intro hne
      rcases left with _ | ⟨b, bs⟩
      · exact absurd rfl hne
      · exact hclose.ret.trans (P.transact_behind _ _ _ _ _ _ port b _ _)
    have hzero : r.code = 0 ↔ ro.ret = .ok ∧ rwr.1 = .ok ∧ rd.done = true ∧ rc.ret = .ok ∧
        rd.rxTotal = payload.length ∧ rd.rx.take payload.length = payload := hcode
    have hfine : r.code = 0 → left = [] := by
      intro h
      by_contra hne
      obtain ⟨-, -, -, hrc, -⟩ := hzero.mp h
      cases (hcbad hne).symm.trans hrc
    refine ⟨⟨fun h => ?_, fun h => ?_⟩, fun h => ?_⟩
    · obtain ⟨ho, -, hd, hrc, htotal, hsame⟩ := hzero.mp h
      obtain rfl := hfine h
      obtain ⟨hne, -, hstored⟩ := hdone hd
      rw [htotal, hsame, List.take_zero, List.nil_append] at hstored
      rw [hchunks, List.append_nil]
      exact ⟨hfit, hret ▸ ho, (hcret rfl).1 ▸ hrc, hne, hstored.symm⟩
    · obtain ⟨-, ho, hc, hne, hflat⟩ := h
      obtain ⟨hd, rfl⟩ := hall hne (by rw [hflat, Nat.zero_add])
      obtain ⟨-, htotal, hstored⟩ := hdone hd
      rw [List.append_nil] at hchunks
      rw [← hchunks, hflat, Nat.zero_add] at htotal
      rw [← hchunks, hflat, List.take_zero, List.nil_append, htotal] at hstored
      exact hzero.mpr ⟨hret.trans ho, hwret, hd, (hcret rfl).1.trans hc, htotal, hstored⟩
    · have hrest := (hcret (hfine h)).2
      rw [show r.state = rc.state from hstate h]
      exact hrest.atRest
  · have hr : r = _ := cmdUartLoopback_large (Link.host stack W P.react) dev port baud (Nat.lt_of_not_le hfit) s
    have hcode : r.code ≠ 0 := by rw [hr]; exact Nat.succ_ne_zero 1
    exact ⟨iff_of_false hcode fun h => hfit h.1, fun h => absurd h hcode⟩

/-- A device that gives back each byte in a frame of its own. -/
def echoPorts : Ports ℕ where
  toService := { echoService with
    serve := fun _ _ d => (DEV_STATUS_OK, [], d + 1)
    length_le := fun _ _ _ => Nat.zero_le _ }
  back _ payload _ := payload.map fun b => ⟨[b], Nat.le_of_ble_eq_true rfl⟩

theorem loopback_over_link_echo :
    let r := cmdUartLoopback (Link.host Stack.zero Transport.bytewise echoPorts.react) freshDevice 3 none [0x41, 0x42]
      ⟨[], [], 0, 0⟩
    r.code = 0 ∧ r.state.AtRest ∧ r.state.device = 2 := by
  intro r
  obtain ⟨hcode, hstate⟩ := loopback_over_link Stack.zero Transport.bytewise echoPorts (s := ⟨[], [], 0, 0⟩) ⟨rfl, rfl⟩
    freshDevice 3 none [0x41, 0x42]
  have hzero : r.code = 0 := hcode.mpr ⟨by decide, by decide, by decide, by decide, by decide⟩
  exact ⟨hzero, hstate hzero⟩

end UsbMux
