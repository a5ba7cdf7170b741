/-
# The loopback check

`cmd_uart_loopback` of the command-line tool: open a port, write a payload,
read chunks until as many bytes are back as were sent, close the port and
compare. The device chooses how many chunks there are and how long they are,
and the last one may overshoot the payload or the buffer. The model keeps
the calls made, with their results, and the copies into `rx`; what the tool
prints is left out.

The trace of the calls is held against the driver (`CallsMade`) and against
the order in which the command makes them (`LoopbackRuns`), `rx` and the copies
against the chunks in it (`Stored`). The loop is described by what its reads
returned (`readChunks_spec`): it is done exactly when they were all OK and not
empty and fitted `rx`, which then holds them one after the other.

Key definitions: `LoopbackCall`, `readChunks`, `cmdUartLoopback`, `CallsMade`,
`LoopbackRuns`, `Stored`, `Passed`.
Key theorems: `uartRead_chunk`, `readChunks_spec`, `cmdUartLoopback_runs`,
`loopback_verdict`.
-/
import UsbMux.UartData

namespace UsbMux

open Buffer

variable {σ : Type}

/-! ### The command -/

/-- A call that `cmd_uart_loopback` makes, and its result. A read comes with
the bytes it has stored. -/
inductive LoopbackCall
  | uartOpen (port : UInt8) (line : LineCoding) (ret : Result)
  | uartWrite (port : UInt8) (data : Bytes) (ret : Result)
  | uartRead (port : UInt8) (ret : Result) (chunk : Bytes)
  | uartClose (port : UInt8) (ret : Result)
  deriving DecidableEq, Repr

/-- The line coding of the command; `baud` is the number its argument reads
as, if there is one. -/
def loopbackLine (baud : Option UInt32) : LineCoding := ⟨baud.getD 115200, 8, 0, 1⟩

/-- What the read loop leaves: whether it came to its end, `rx_total`, `rx`,
the copies into `rx` (offset and length), the calls and the host. -/
structure ReadChunks (σ : Type) where
  done : Bool
  rxTotal : ℕ
  rx : Bytes
  copies : List (ℕ × ℕ)
  calls : List LoopbackCall
  state : σ

/-- The loop of `cmd_uart_loopback`, with `rxTotal` bytes in `rx`. A length
read is that of a 16-bit field, so `rx_total + chunk_len` does not wrap. -/
def readChunks (host : Host σ) (dev : Device) (port : UInt8) (payloadLen rxTotal : ℕ) (rx : Bytes) (s : σ) :
    ReadChunks σ :=
  if rxTotal < payloadLen then
    match uartRead host dev port (some (host.stack s MAX_FRAME_LEN)) MAX_FRAME_LEN (some 0) s with
    | (ret, out, s) =>
      if ret ≠ .ok then ⟨false, rxTotal, rx, [], [.uartRead port ret []], s⟩
      else
        let chunkLen := out.len.getD 0
        let chunk := (out.payload.getD []).take chunkLen
        if chunkLen = 0 ∨ rxTotal + chunkLen > MAX_FRAME_LEN then
          ⟨false, rxTotal, rx, [], [.uartRead port ret chunk], s⟩
        else
          let r := readChunks host dev port payloadLen (rxTotal + chunkLen) (writeAt rx rxTotal chunk) s
          { r with copies := (rxTotal, chunkLen) :: r.copies, calls := .uartRead port ret chunk :: r.calls }
  else ⟨true, rxTotal, rx, [], [], s⟩
termination_by payloadLen - rxTotal

/-- What the command leaves: its exit code, `rx`, the copies into it, the
calls it has made, the device and the host. -/
structure Loopback (σ : Type) where
  code : ℕ
  rx : Bytes
  copies : List (ℕ × ℕ)
  calls : List LoopbackCall
  dev : Device
  state : σ

/-- `cmd_uart_loopback`; `payload` is the text up to its NUL. -/
def cmdUartLoopback (host : Host σ) (dev : Device) (port : UInt8) (baud : Option UInt32) (payload : Bytes)
    (s : σ) : Loopback σ :=
  let line := loopbackLine baud
  let rx := host.stack s MAX_FRAME_LEN
  if payload.length > MAX_FRAME_LEN - HEADER_LEN then ⟨2, rx, [], [], dev, s⟩
  else
    let o := uartOpen host dev port (some line) s
    let opened := [.uartOpen port line o.ret]
    if o.ret ≠ .ok then ⟨1, rx, [], opened, o.dev, o.state⟩
    else
      match uartWrite host o.dev port (some payload) payload.length o.state with
      | (ret, dev, s) =>
        let written := opened ++ [.uartWrite port payload ret]
        if ret ≠ .ok then
          let c := uartClose host dev port s
          ⟨1, rx, [], written ++ [.uartClose port c.ret], c.dev, c.state⟩
        else
          let r := readChunks host dev port payload.length 0 rx s
          let c := uartClose host dev port r.state
          -- a failed read closes the port too, and ignores what that returns
          let code := if !r.done then 1 else if c.ret ≠ .ok then 1 else
            if r.rxTotal ≠ payload.length ∨ r.rx.take payload.length ≠ payload then 1 else 0
          ⟨code, r.rx, r.copies, written ++ r.calls ++ [.uartClose port c.ret], c.dev, c.state⟩

/-! ### The calls -/

/-- The call is the driver's, on `dev` and `s`, returns this and leaves `dev'`
and `s'`. A read goes into an array on the stack. -/
def LoopbackCall.Made (host : Host σ) (dev : Device) (s : σ) (dev' : Device) (s' : σ) : LoopbackCall → Prop
  | .uartOpen port line ret =>
    let r := UsbMux.uartOpen host dev port (some line) s
    r.ret = ret ∧ r.dev = dev' ∧ r.state = s'
  | .uartWrite port data ret => UsbMux.uartWrite host dev port (some data) data.length s = (ret, dev', s')
  | .uartRead port ret chunk => dev' = dev ∧
    ∃ out, UsbMux.uartRead host dev port (some (host.stack s 512)) 512 (some 0) s = (ret, out, s') ∧
      chunk = if ret = .ok then (out.payload.getD []).take (out.len.getD 0) else []
  | .uartClose port ret =>
    let r := UsbMux.uartClose host dev port s
    r.ret = ret ∧ r.dev = dev' ∧ r.state = s'

/-- The calls are made one after the other. -/
def CallsMade (host : Host σ) : Device → σ → List LoopbackCall → Device → σ → Prop
  | dev, s, [], dev', s' => dev' = dev ∧ s' = s
  | dev, s, c :: calls, dev', s' => ∃ dev₁ s₁, c.Made host dev s dev₁ s₁ ∧ CallsMade host dev₁ s₁ calls dev' s'

/-- The number of reads among the calls. -/
def readCount : List LoopbackCall → ℕ
  | [] => 0
  | .uartRead _ _ _ :: calls => readCount calls + 1
  | .uartOpen _ _ _ :: calls => readCount calls
  | .uartWrite _ _ _ :: calls => readCount calls
  | .uartClose _ _ :: calls => readCount calls

/-- What the reads have brought, in order. -/
def chunksRead : List LoopbackCall → List Bytes
  | [] => []
  | .uartRead _ _ chunk :: calls => chunk :: chunksRead calls
  | .uartOpen _ _ _ :: calls => chunksRead calls
  | .uartWrite _ _ _ :: calls => chunksRead calls
  | .uartClose _ _ :: calls => chunksRead calls

/-- The ports closed, in order. -/
def closes : List LoopbackCall → List UInt8
  | [] => []
  | .uartClose port _ :: calls => port :: closes calls
  | .uartOpen _ _ _ :: calls => closes calls
  | .uartWrite _ _ _ :: calls => closes calls
  | .uartRead _ _ _ :: calls => closes calls

/-- The copies of chunks that are put one behind the other. -/
def copiesFrom : ℕ → List Bytes → List (ℕ × ℕ)
  | _, [] => []
  | rxTotal, chunk :: chunks => (rxTotal, chunk.length) :: copiesFrom (rxTotal + chunk.length) chunks

/-- `rx` and the copies into it are those of the chunks read, with or without
the last one. -/
def Stored (rx₀ : Bytes) (rxTotal : ℕ) (calls : List LoopbackCall) (rx : Bytes) (copies : List (ℕ × ℕ)) : Prop :=
  ∃ chunks rest, chunksRead calls = chunks ++ rest ∧ rest.length ≤ 1 ∧ copies = copiesFrom rxTotal chunks ∧
    rx = writeAt rx₀ rxTotal chunks.flatten

/-- Every call returned OK, every chunk read brought something, and the
chunks are the payload, cut up. -/
def Passed (port : UInt8) (line : LineCoding) (payload : Bytes) (calls : List LoopbackCall) : Prop :=
  ∃ chunks : List Bytes, calls = .uartOpen port line .ok :: .uartWrite port payload .ok ::
      (chunks.map (.uartRead port .ok) ++ [.uartClose port .ok]) ∧
    (∀ chunk ∈ chunks, chunk ≠ []) ∧ chunks.flatten = payload

/-- The reads of a loop that has `rxTotal` of the bytes it waits for: until it
has them all, or up to a read that fails, brings nothing or brings more than
`rx` has room for. -/
inductive LoopReads (port : UInt8) (payloadLen : ℕ) : ℕ → List LoopbackCall → Prop
  | done {rxTotal : ℕ} (hge : payloadLen ≤ rxTotal) : LoopReads port payloadLen rxTotal []
  | failed {rxTotal : ℕ} {ret : Result} {chunk : Bytes} (hlt : rxTotal < payloadLen)
      (hbad : ret ≠ .ok ∨ chunk = [] ∨ 512 < rxTotal + chunk.length) :
      LoopReads port payloadLen rxTotal [.uartRead port ret chunk]
  | next {rxTotal : ℕ} {chunk : Bytes} {calls : List LoopbackCall} (hlt : rxTotal < payloadLen) (hne : chunk ≠ [])
      (hfit : rxTotal + chunk.length ≤ 512) (hrest : LoopReads port payloadLen (rxTotal + chunk.length) calls) :
      LoopReads port payloadLen rxTotal (.uartRead port .ok chunk :: calls)

/-- The calls of a command whose payload fits a frame. -/
inductive LoopbackRuns (port : UInt8) (line : LineCoding) (payload : Bytes) : List LoopbackCall → Prop
  | unopened {ret : Result} (hret : ret ≠ .ok) : LoopbackRuns port line payload [.uartOpen port line ret]
  | unwritten {ret : Result} (ret' : Result) (hret : ret ≠ .ok) :
      LoopbackRuns port line payload [.uartOpen port line .ok, .uartWrite port payload ret, .uartClose port ret']
  | closed {reads : List LoopbackCall} (ret : Result) (hreads : LoopReads port payload.length 0 reads) :
      LoopbackRuns port line payload
        (.uartOpen port line .ok :: .uartWrite port payload .ok :: (reads ++ [.uartClose port ret]))

theorem CallsMade.append {host : Host σ} {dev₁ dev₂ : Device} {s₁ s₂ : σ} {b : List LoopbackCall} :
    ∀ {a : List LoopbackCall} {dev : Device} {s : σ}, CallsMade host dev s a dev₁ s₁ →
      CallsMade host dev₁ s₁ b dev₂ s₂ →
      CallsMade host dev s (a ++ b) dev₂ s₂
  | [], _, _, ⟨hdev, hs⟩, hb => hdev ▸ hs ▸ hb
  | _ :: _, _, _, ⟨dev', s', hc, ha⟩, hb => ⟨dev', s', hc, ha.append hb⟩

theorem chunksRead_append (b : List LoopbackCall) :
    ∀ a : List LoopbackCall, chunksRead (a ++ b) = chunksRead a ++ chunksRead b
  | [] => rfl
  | .uartRead _ _ chunk :: a => congrArg (chunk :: ·) (chunksRead_append b a)
  | .uartOpen _ _ _ :: a => chunksRead_append b a
  | .uartWrite _ _ _ :: a => chunksRead_append b a
  | .uartClose _ _ :: a => chunksRead_append b a

theorem readCount_append (b : List LoopbackCall) :
    ∀ a : List LoopbackCall, readCount (a ++ b) = readCount a + readCount b
  | [] => (Nat.zero_add _).symm
  | .uartRead _ _ _ :: a => by simp only [List.cons_append, readCount, readCount_append b a]; omega
  | .uartOpen _ _ _ :: a => readCount_append b a
  | .uartWrite _ _ _ :: a => readCount_append b a
  | .uartClose _ _ :: a => readCount_append b a

theorem closes_append (b : List LoopbackCall) :
    ∀ a : List LoopbackCall, closes (a ++ b) = closes a ++ closes b
  | [] => rfl
  | .uartClose port _ :: a => congrArg (port :: ·) (closes_append b a)
  | .uartOpen _ _ _ :: a => closes_append b a
  | .uartWrite _ _ _ :: a => closes_append b a
  | .uartRead _ _ _ :: a => closes_append b a

theorem LoopReads.readCount_le {port : UInt8} {payloadLen rxTotal : ℕ} {calls : List LoopbackCall}
    (h : LoopReads port payloadLen rxTotal calls) : readCount calls ≤ payloadLen - rxTotal := by
  induction h with
  | done hge => exact Nat.zero_le _
  | failed hlt hbad =>
    simp only [readCount]
    omega
  | next hlt hne hfit hrest ih =>
    have hpos := List.length_pos_iff.mpr hne
    simp only [readCount]
    omega

theorem LoopReads.closes {port : UInt8} {payloadLen rxTotal : ℕ} {calls : List LoopbackCall}
    (h : LoopReads port payloadLen rxTotal calls) : closes calls = [] := by
  induction h with
  | done hge => rfl
  | failed hlt hbad => rfl
  | next hlt hne hfit hrest ih => exact ih

/-- A chunk is at least a byte. -/
theorem LoopbackRuns.readCount_le {port : UInt8} {line : LineCoding} {payload : Bytes} {calls : List LoopbackCall}
    (h : LoopbackRuns port line payload calls) : readCount calls ≤ payload.length := by
  cases h with
  | unopened hret => exact Nat.zero_le _
  | unwritten ret' hret => exact Nat.zero_le _
  | closed ret hreads =>
    simp only [readCount, readCount_append, Nat.add_zero]
    exact hreads.readCount_le

/-- Every way behind the open goes through the close. -/
theorem LoopbackRuns.closes {port : UInt8} {line : LineCoding} {payload : Bytes} {calls : List LoopbackCall}
    (h : LoopbackRuns port line payload calls) (hopen : .uartOpen port line .ok ∈ calls) : closes calls = [port] := by
  cases h with
  | unopened hret => exact absurd (LoopbackCall.uartOpen.inj (List.mem_singleton.mp hopen)).2.2.symm hret
  | unwritten ret' hret => rfl
  | closed ret hreads =>
    simp only [UsbMux.closes, closes_append, hreads.closes, List.nil_append]

/-! ### A chunk -/

/-- A read into a 512-byte array that returns OK has stored as many bytes as
it reports, 488 at most. -/
theorem uartRead_chunk {host : Host σ} {dev : Device} {port : UInt8} {s s₁ : σ} {out : Out}
    (hread : uartRead host dev port (some (host.stack s 512)) 512 (some 0) s = (.ok, out, s₁)) :
    out.len.getD 0 ≤ 488 ∧ ((out.payload.getD []).take (out.len.getD 0)).length = out.len.getD 0 := by
  have hcases := uartRead_cases host dev port (some (host.stack s 512)) 512 (some 0) s
  rw [hread] at hcases
  obtain ⟨evs, -, h, L, -, -, h488, -, hle, hlen, hpayload⟩ := reader_delivered (acceptData_stores port 512) hcases rfl
  have hstack : (host.stack s 512).length = 512 := host.length_stack s 512
  rw [show out.len = some L from hlen, show out.payload = some _ from hpayload]
  simp only [Option.getD_some, List.length_take, List.length_append, List.length_drop, hstack]
  omega

/-! ### The loop -/

/-- What the reads of a loop must be for it to come to its end, from
`rxTotal` bytes on: OK, not empty, and within the buffer. -/
def ReadsIn (port : UInt8) (rxTotal : ℕ) (chunks : List Bytes) (calls : List LoopbackCall) : Prop :=
  calls = chunks.map (.uartRead port .ok) ∧ (∀ chunk ∈ chunks, chunk ≠ []) ∧
    rxTotal + chunks.flatten.length ≤ 512

theorem ReadsIn.cons {port : UInt8} {rxTotal n : ℕ} {chunk : Bytes} {chunks : List Bytes}
    {calls : List LoopbackCall} (h : ReadsIn port (rxTotal + n) chunks calls) (hn : chunk.length = n)
    (hne : chunk ≠ []) : ReadsIn port rxTotal (chunk :: chunks) (.uartRead port .ok chunk :: calls) := by
  obtain ⟨hcalls, hall, hfit⟩ := h
  refine ⟨by rw [hcalls, List.map_cons], List.forall_mem_cons.mpr ⟨hne, hall⟩, ?_⟩
  rw [List.flatten_cons, List.length_append]
  omega

theorem ReadsIn.tail {port : UInt8} {rxTotal n : ℕ} {ret : Result} {chunk : Bytes} {chunks : List Bytes}
    {calls : List LoopbackCall} (h : ReadsIn port rxTotal chunks (.uartRead port ret chunk :: calls))
    (hn : chunk.length = n) : ret = .ok ∧ 0 < n ∧ ∃ rest, ReadsIn port (rxTotal + n) rest calls := by
  obtain ⟨hcalls, hall, hfit⟩ := h
  rcases chunks with _ | ⟨c, rest⟩
  · cases hcalls
  · obtain ⟨hhead, htail⟩ := List.cons.inj hcalls
    obtain ⟨-, rfl, rfl⟩ := LoopbackCall.uartRead.inj hhead
    obtain ⟨hne, hrest⟩ := List.forall_mem_cons.mp hall
    rw [List.flatten_cons, List.length_append] at hfit
    exact ⟨rfl, hn ▸ List.length_pos_of_ne_nil hne, rest, htail, hrest, by omega⟩

/-- **The read loop.** It stays in `rx`. It comes to its end when its reads are
all OK, not empty and within the buffer, and only then; `rx` then holds what
they brought. -/
theorem readChunks_spec (host : Host σ) (dev : Device) (port : UInt8) (payloadLen rxTotal : ℕ) (rx : Bytes)
    (s : σ) (hrx : rx.length = 512) (hfit : rxTotal ≤ 512) :
    let r := readChunks host dev port payloadLen rxTotal rx s
    r.rx.length = 512 ∧ (∀ p ∈ r.copies, p.1 + p.2 ≤ 512) ∧
      (r.done = false → ∀ chunks, ¬ReadsIn port rxTotal chunks r.calls) ∧
      (r.done = true → ∃ chunks, ReadsIn port rxTotal chunks r.calls ∧ payloadLen ≤ r.rxTotal ∧
        r.rxTotal = rxTotal + chunks.flatten.length ∧
        r.rx.take r.rxTotal = rx.take rxTotal ++ chunks.flatten) := by
  fun_induction readChunks host dev port payloadLen rxTotal rx s with
  | case1 rxTotal rx s hlt ret out s₁ hread hret =>
    exact ⟨hrx, List.forall_mem_nil _, fun _ chunks h => hret (h.tail rfl).1, fun h => by cases h⟩
  | case2 rxTotal rx s hlt ret out s₁ hread hret chunkLen chunk hbad =>
    -- the chunk is empty or goes past the buffer
    obtain rfl : ret = .ok := not_not.mp hret
    have hlen : chunk.length = chunkLen := (uartRead_chunk hread).2
    refine ⟨hrx, List.forall_mem_nil _, fun _ chunks h => ?_, fun h => by cases h⟩
    obtain ⟨-, hpos, rest, -, -, hroom⟩ := h.tail hlen
    simp only [MAX_FRAME_LEN] at hbad
    omega
  | case3 rxTotal rx s hlt ret out s₁ hread hret chunkLen chunk hbad r ih =>
    obtain rfl : ret = .ok := not_not.mp hret
    have hlen : chunk.length = chunkLen := (uartRead_chunk hread).2
    obtain ⟨hpos, hroom⟩ := not_or.mp hbad
    have hne : chunk ≠ [] := List.ne_nil_of_length_pos (by omega)
    have hroom : rxTotal + chunkLen ≤ 512 := Nat.le_of_not_lt hroom
    have hrx' : (writeAt rx rxTotal chunk).length = 512 := (length_writeAt (by omega)).trans hrx
    obtain ⟨hlast, hcopies, hfail, hdone⟩ := ih hrx' hroom
    refine ⟨hlast, List.forall_mem_cons.mpr ⟨hroom, hcopies⟩, fun h chunks hin => ?_, fun h => ?_⟩
    · obtain ⟨-, -, rest, hrest⟩ := hin.tail hlen
      exact hfail h rest hrest
    · obtain ⟨chunks, hin, hge, htotal, hstored⟩ := hdone h
      refine ⟨chunk :: chunks, hin.cons hlen hne, hge, ?_, ?_⟩
      · rw [List.flatten_cons, List.length_append, hlen, ← Nat.add_assoc]
        exact htotal
      · rw [List.flatten_cons, ← List.append_assoc]
        refine hstored.trans (congrArg (· ++ chunks.flatten) ?_)
        rw [← hlen]
        exact take_writeAt (hrx ▸ hfit)
  | case4 rxTotal rx s hlt =>
    refine ⟨hrx, List.forall_mem_nil _, fun h => (by cases h), fun _ => ?_⟩
    exact ⟨[], ⟨rfl, List.forall_mem_nil _, hfit⟩, Nat.le_of_not_lt hlt, rfl, (List.append_nil _).symm⟩

/-- The reads of the loop, as the driver makes them. -/
theorem readChunks_made (host : Host σ) (dev : Device) (port : UInt8) (payloadLen rxTotal : ℕ) (rx : Bytes) (s : σ) :
    let r := readChunks host dev port payloadLen rxTotal rx s
    CallsMade host dev s r.calls dev r.state := by
  fun_induction readChunks host dev port payloadLen rxTotal rx s with
  | case1 rxTotal rx s hlt ret out s₁ hread hret =>
    exact ⟨dev, s₁, ⟨rfl, out, hread, (if_neg hret).symm⟩, rfl, rfl⟩
  | case2 rxTotal rx s hlt ret out s₁ hread hret chunkLen chunk hbad =>
    exact ⟨dev, s₁, ⟨rfl, out, hread, (if_pos (not_not.mp hret)).symm⟩, rfl, rfl⟩
  | case3 rxTotal rx s hlt ret out s₁ hread hret chunkLen chunk hbad r ih =>
    exact ⟨dev, s₁, ⟨rfl, out, hread, (if_pos (not_not.mp hret)).symm⟩, ih⟩
  | case4 rxTotal rx s hlt => exact ⟨rfl, rfl⟩

theorem readChunks_loops (host : Host σ) (dev : Device) (port : UInt8) (payloadLen rxTotal : ℕ) (rx : Bytes) (s : σ) :
    LoopReads port payloadLen rxTotal (readChunks host dev port payloadLen rxTotal rx s).calls := by
  fun_induction readChunks host dev port payloadLen rxTotal rx s with
  | case1 rxTotal rx s hlt ret out s₁ hread hret => exact .failed hlt (.inl hret)
  | case2 rxTotal rx s hlt ret out s₁ hread hret chunkLen chunk hbad =>
    obtain rfl : ret = .ok := not_not.mp hret
    have hlen : chunk.length = chunkLen := (uartRead_chunk hread).2
    rw [← hlen, List.length_eq_zero_iff] at hbad
    exact .failed hlt (.inr hbad)
  | case3 rxTotal rx s hlt ret out s₁ hread hret chunkLen chunk hbad r ih =>
    obtain rfl : ret = .ok := not_not.mp hret
    have hlen : chunk.length = chunkLen := (uartRead_chunk hread).2
    rw [← hlen, List.length_eq_zero_iff, not_or, Nat.not_lt] at hbad
    exact .next hlt hbad.1 hbad.2 (hlen ▸ ih)
  | case4 rxTotal rx s hlt => exact .done (Nat.le_of_not_lt hlt)

/-- A chunk that is not the last goes right behind those before it. -/
theorem readChunks_stored (host : Host σ) (dev : Device) (port : UInt8) (payloadLen rxTotal : ℕ) (rx : Bytes) (s : σ)
    (hrx : rx.length = 512) (hfit : rxTotal ≤ 512) :
    let r := readChunks host dev port payloadLen rxTotal rx s
    Stored rx rxTotal r.calls r.rx r.copies := by
  fun_induction readChunks host dev port payloadLen rxTotal rx s with
  | case1 rxTotal rx s hlt ret out s₁ hread hret =>
    exact ⟨[], [[]], rfl, le_rfl, rfl, (writeAt_nil rx rxTotal).symm⟩
  | case2 rxTotal rx s hlt ret out s₁ hread hret chunkLen chunk hbad =>
    exact ⟨[], [chunk], rfl, le_rfl, rfl, (writeAt_nil rx rxTotal).symm⟩
  | case3 rxTotal rx s hlt ret out s₁ hread hret chunkLen chunk hbad r ih =>
    obtain rfl : ret = .ok := not_not.mp hret
    have hlen : chunk.length = chunkLen := (uartRead_chunk hread).2
    have hroom : rxTotal + chunkLen ≤ 512 := Nat.le_of_not_lt (not_or.mp hbad).2
    obtain ⟨chunks, rest, hchunks, hrest, hcopies, hstored⟩ :=
      ih ((length_writeAt (by omega)).trans hrx) hroom
    refine ⟨chunk :: chunks, rest, congrArg (chunk :: ·) hchunks, hrest, ?_, ?_⟩
    · rw [copiesFrom, hlen]
      exact congrArg ((rxTotal, chunkLen) :: ·) hcopies
    · rw [List.flatten_cons, ← writeAt_writeAt (hrx ▸ hfit), hlen]
      exact hstored
  | case4 rxTotal rx s hlt => exact ⟨[], [], rfl, Nat.zero_le _, rfl, (writeAt_nil rx rxTotal).symm⟩

/-! ### The verdict -/

theorem ReadsIn.unique {port : UInt8} {rxTotal : ℕ} {a b : List Bytes} {calls : List LoopbackCall}
    (ha : ReadsIn port rxTotal a calls) (hb : ReadsIn port rxTotal b calls) : a = b := by
  have hinj : Function.Injective (LoopbackCall.uartRead port .ok) :=
    fun x y h => (LoopbackCall.uartRead.inj h).2.2
  exact List.map_injective_iff.mpr hinj (ha.1.symm.trans hb.1)

/-- A command that opened and wrote has passed if it closed and its reads
make up the payload. -/
theorem passed_iff {port : UInt8} {line : LineCoding} {payload : Bytes} {reads : List LoopbackCall} {ret : Result}
    (hfit : payload.length ≤ 512) :
    Passed port line payload ([.uartOpen port line .ok] ++ [.uartWrite port payload .ok] ++ reads ++
        [.uartClose port ret]) ↔
      ret = .ok ∧ ∃ chunks, ReadsIn port 0 chunks reads ∧ chunks.flatten = payload := by
  constructor
  · rintro ⟨chunks, hcalls, hall, hflat⟩
    have htail := (List.cons.inj (List.cons.inj hcalls).2).2
    obtain ⟨hreads, hclose⟩ := List.append_inj' htail rfl
    have hret := (LoopbackCall.uartClose.inj (List.cons.inj hclose).1).2
    exact ⟨hret, chunks, ⟨hreads, hall, by rw [hflat]; omega⟩, hflat⟩
  · rintro ⟨hret, chunks, ⟨hreads, hall, -⟩, hflat⟩
    exact ⟨chunks, by rw [hret, hreads]; rfl, hall, hflat⟩

theorem exit_eq_zero {p : Prop} [Decidable p] {n : ℕ} : (if p then 1 else n) = 0 ↔ ¬p ∧ n = 0 := by
  by_cases h : p <;> simp [h]

/-- The ways through the command: it gives up before it reads, or it has
opened the port and written, and what the reads brought decides. -/
theorem cmdUartLoopback_cases (host : Host σ) (dev : Device) (port : UInt8) (baud : Option UInt32)
    (payload : Bytes) (s : σ) :
    let r := cmdUartLoopback host dev port baud payload s
    let opened := LoopbackCall.uartOpen port (loopbackLine baud)
    CallsMade host dev s r.calls r.dev r.state ∧
      (r.code ≠ 0 ∧ r.rx = host.stack s 512 ∧ r.copies = [] ∧
          (488 < payload.length ∧ r.calls = [] ∨ payload.length ≤ 488 ∧ ((∃ ret, ret ≠ .ok ∧ r.calls = [opened ret]) ∨
            ∃ ret ret', ret ≠ .ok ∧
              r.calls = [opened .ok] ++ [.uartWrite port payload ret] ++ [.uartClose port ret'])) ∨
        payload.length ≤ 488 ∧ ∃ dev' s' ret, let rd := readChunks host dev' port payload.length 0 (host.stack s 512) s'
          r.rx = rd.rx ∧ r.copies = rd.copies ∧
            r.calls = [opened .ok] ++ [.uartWrite port payload .ok] ++ rd.calls ++ [.uartClose port ret] ∧
            (r.code = 0 ↔ rd.done = true ∧ ret = .ok ∧ rd.rxTotal = payload.length ∧
              rd.rx.take payload.length = payload)) := by
  intro r opened
  set o := uartOpen host dev port (some (loopbackLine baud)) s
  set w := uartWrite host o.dev port (some payload) payload.length o.state
  by_cases hbig : payload.length > 488
  · have hr : r = ⟨2, host.stack s 512, [], [], dev, s⟩ := if_pos hbig
    rw [hr]
    exact ⟨⟨rfl, rfl⟩, .inl ⟨by simp, rfl, rfl, .inl ⟨hbig, rfl⟩⟩⟩
  have hfit : payload.length ≤ 488 := Nat.le_of_not_lt hbig
  by_cases hopen : o.ret ≠ .ok
  · have hr : r = ⟨1, host.stack s 512, [], [opened o.ret], o.dev, o.state⟩ := (if_neg hbig).trans (if_pos hopen)
    rw [hr]
    exact ⟨⟨o.dev, o.state, ⟨rfl, rfl, rfl⟩, rfl, rfl⟩, .inl ⟨by simp, rfl, rfl, .inr ⟨hfit, .inl ⟨_, hopen, rfl⟩⟩⟩⟩
  have hopened : o.ret = .ok := not_not.mp hopen
  have hfirst : CallsMade host dev s [opened .ok, .uartWrite port payload w.1] w.2.1 w.2.2 :=
    ⟨o.dev, o.state, ⟨hopened, rfl, rfl⟩, w.2.1, w.2.2, rfl, rfl, rfl⟩
  by_cases hwrite : w.1 ≠ .ok
  · set c := uartClose host w.2.1 port w.2.2
    have hr : r = ⟨1, host.stack s 512, [], [opened o.ret] ++ [.uartWrite port payload w.1] ++ [.uartClose port c.ret],
        c.dev, c.state⟩ := (if_neg hbig).trans ((if_neg hopen).trans (if_pos hwrite))
    rw [hr, hopened]
    exact ⟨hfirst.append ⟨c.dev, c.state, ⟨rfl, rfl, rfl⟩, rfl, rfl⟩,
      .inl ⟨by simp, rfl, rfl, .inr ⟨hfit, .inr ⟨_, _, hwrite, rfl⟩⟩⟩⟩
  · have hwritten : w.1 = .ok := not_not.mp hwrite
    set rd := readChunks host w.2.1 port payload.length 0 (host.stack s 512) w.2.2
    set c := uartClose host w.2.1 port rd.state
    have hr : r = ⟨if !rd.done then 1 else if c.ret ≠ .ok then 1 else
        if rd.rxTotal ≠ payload.length ∨ rd.rx.take payload.length ≠ payload then 1 else 0, rd.rx, rd.copies,
        [opened o.ret] ++ [.uartWrite port payload w.1] ++ rd.calls ++ [.uartClose port c.ret], c.dev, c.state⟩ :=
      (if_neg hbig).trans ((if_neg hopen).trans (if_neg hwrite))
    rw [hwritten] at hfirst
    rw [hr, hopened, hwritten]
    refine ⟨(hfirst.append (readChunks_made ..)).append ⟨c.dev, c.state, ⟨rfl, rfl, rfl⟩, rfl, rfl⟩,
      .inr ⟨hfit, w.2.1, w.2.2, c.ret, rfl, rfl, rfl, ?_⟩⟩
    simp only [exit_eq_zero, not_or, ne_eq, not_not, Bool.not_eq_true', Bool.not_eq_false, and_true]
    exact Iff.rfl

/-- The calls. -/
theorem cmdUartLoopback_runs (host : Host σ) (dev : Device) (port : UInt8) (baud : Option UInt32) (payload : Bytes)
    (s : σ) :
    let r := cmdUartLoopback host dev port baud payload s
    if payload.length ≤ 488 then LoopbackRuns port (loopbackLine baud) payload r.calls else r.calls = [] := by
  intro r
  obtain ⟨-, ⟨-, -, -, ⟨hbig, h⟩ | ⟨hfit, ⟨ret, hopen, h⟩ | ⟨ret, ret', hwrite, h⟩⟩⟩ |
      ⟨hfit, dev', s', ret, -, -, h, -⟩⟩ := cmdUartLoopback_cases host dev port baud payload s
  · rwa [if_neg (Nat.not_le_of_lt hbig)]
  · rw [if_pos hfit, h]
    exact .unopened hopen
  · rw [if_pos hfit, h]
    exact .unwritten ret' hwrite
  · rw [if_pos hfit, h]
    exact .closed ret (readChunks_loops ..)

/-- The exit code. -/
theorem cmdUartLoopback_passed (host : Host σ) (dev : Device) (port : UInt8) (baud : Option UInt32) (payload : Bytes)
    (s : σ) :
    let r := cmdUartLoopback host dev port baud payload s
    r.code = 0 ↔ Passed port (loopbackLine baud) payload r.calls := by
  intro r
  obtain ⟨-, ⟨hcode, -, -, hcalls⟩ | ⟨hfit, dev', s', ret, -, -, hcalls, hcode⟩⟩ :=
    cmdUartLoopback_cases host dev port baud payload s
  · refine ⟨fun h => absurd h hcode, ?_⟩
    rintro ⟨chunks, hpass, -⟩
    rcases hcalls with ⟨-, h⟩ | ⟨-, ⟨ret, -, h⟩ | ⟨ret, ret', hwrite, h⟩⟩ <;> rw [h] at hpass
    · cases hpass
    · cases (List.cons.inj hpass).2
    · exact absurd (LoopbackCall.uartWrite.inj (List.cons.inj (List.cons.inj hpass).2).1).2.2 hwrite
  · obtain ⟨-, -, hfail, hdone⟩ :=
      readChunks_spec host dev' port payload.length 0 (host.stack s 512) s' (host.length_stack s 512) (Nat.zero_le _)
    rw [hcode, hcalls, passed_iff (by omega)]
    constructor
    · rintro ⟨hd, hret, htotal, hsame⟩
      obtain ⟨chunks, hin, -, -, hstored⟩ := hdone hd
      rw [htotal, hsame] at hstored
      exact ⟨hret, chunks, hin, hstored.symm⟩
    · rintro ⟨hret, chunks, hin, hflat⟩
      have hd := Bool.eq_true_of_not_eq_false fun hnot => hfail hnot chunks hin
      obtain ⟨chunks', hin', -, htotal, hstored⟩ := hdone hd
      obtain rfl : chunks' = chunks := hin'.unique hin
      rw [hflat, Nat.zero_add] at htotal
      rw [htotal, hflat] at hstored
      exact ⟨hd, hret, htotal, hstored⟩

/-- **The loopback verdict.** Whatever the device does, the calls of the trace
are those the driver made: if the payload fits a frame, the command opens,
writes, reads as long as bytes are missing and nothing went wrong, and closes;
else it makes none. The chunks read are what is stored in `rx`, but for the
last one where it failed. The command reads at most once for each byte of the
payload, copies nothing past the end of `rx`, exits with 0 exactly when every
call was OK, every chunk brought something and the chunks are the payload, and
closes a port it has opened once. -/
theorem loopback_verdict (host : Host σ) (dev : Device) (port : UInt8) (baud : Option UInt32) (payload : Bytes)
    (s : σ) :
    let r := cmdUartLoopback host dev port baud payload s
    CallsMade host dev s r.calls r.dev r.state ∧
      (if payload.length ≤ 488 then LoopbackRuns port (loopbackLine baud) payload r.calls else r.calls = []) ∧
      readCount r.calls ≤ payload.length ∧
      (r.rx.length = 512 ∧ ∀ p ∈ r.copies, p.1 + p.2 ≤ 512) ∧
      Stored (host.stack s 512) 0 r.calls r.rx r.copies ∧
      (r.code = 0 ↔ Passed port (loopbackLine baud) payload r.calls) ∧
      (.uartOpen port (loopbackLine baud) .ok ∈ r.calls → closes r.calls = [port]) := by
  intro r
  have hstack : (host.stack s 512).length = 512 := host.length_stack s 512
  have hpassed : r.code = 0 ↔ Passed port (loopbackLine baud) payload r.calls :=
    cmdUartLoopback_passed host dev port baud payload s
  have hruns : if payload.length ≤ 488 then LoopbackRuns port (loopbackLine baud) payload r.calls else r.calls = [] :=
    cmdUartLoopback_runs host dev port baud payload s
  have htrace : readCount r.calls ≤ payload.length ∧
      (.uartOpen port (loopbackLine baud) .ok ∈ r.calls → closes r.calls = [port]) := by
    by_cases hfit : payload.length ≤ 488
    · rw [if_pos hfit] at hruns
      exact ⟨hruns.readCount_le, hruns.closes⟩
    · rw [if_neg hfit] at hruns
      rw [hruns]
      exact ⟨Nat.zero_le _, fun hmem => by cases hmem⟩
  suffices hbuffer : (r.rx.length = 512 ∧ ∀ p ∈ r.copies, p.1 + p.2 ≤ 512) ∧
      Stored (host.stack s 512) 0 r.calls r.rx r.copies from
    ⟨(cmdUartLoopback_cases host dev port baud payload s).1, hruns, htrace.1, hbuffer.1, hbuffer.2, hpassed, htrace.2⟩
  obtain ⟨-, ⟨-, hrx, hcopies, hcalls⟩ | ⟨-, dev', s', ret, hrx, hcopies, hcalls, -⟩⟩ :=
    cmdUartLoopback_cases host dev port baud payload s
  · have hnone : chunksRead r.calls = [] := by
      rcases hcalls with ⟨-, h⟩ | ⟨-, ⟨ret, -, h⟩ | ⟨ret, ret', -, h⟩⟩ <;> rw [h] <;> rfl
    exact ⟨⟨hrx ▸ hstack, fun p hp => by rw [hcopies] at hp; cases hp⟩,
      [], [], hnone, Nat.zero_le _, hcopies, hrx.trans (writeAt_nil ..).symm⟩
  · obtain ⟨hlast, hcopied, -, -⟩ :=
      readChunks_spec host dev' port payload.length 0 (host.stack s 512) s' hstack (Nat.zero_le _)
    have hstored := readChunks_stored host dev' port payload.length 0 (host.stack s 512) s' hstack (Nat.zero_le _)
    set rd := readChunks host dev' port payload.length 0 (host.stack s 512) s'
    have hchunks : chunksRead r.calls = chunksRead rd.calls := by
      rw [hcalls, chunksRead_append, chunksRead_append]
      exact List.append_nil _
    refine ⟨⟨hrx ▸ hlast, fun p hp => hcopied p (hcopies ▸ hp)⟩, ?_⟩
    unfold Stored
    rw [hchunks, hrx, hcopies]
    exact hstored

/-- Two bytes come back in two frames: `last` is the second of them. -/
def loopbackQueue (last : UInt8) : List InEvent :=
  let answer (seq : UInt16) (opcode : UInt8) := frameBytes ({ Header.zero with
    refSeq := seq, chType := ChannelType.uartCtrl.code, chId := 3, msgType := MsgType.rsp.code,
    opcode := opcode }.forPayload []) []
  [.packet (answer 1 UART_OPEN), .packet (dataFrame 3 0 [0x41]), .packet (dataFrame 3 0 [last]),
    .packet (answer 3 UART_CLOSE)]

example : (cmdUartLoopback (Pipe.host Stack.zero silent) freshDevice 3 none [0x41, 0x42]
    ⟨loopbackQueue 0x42, ()⟩).code = 0 := by decide +kernel

example : (cmdUartLoopback (Pipe.host Stack.zero silent) freshDevice 3 none [0x41, 0x42]
    ⟨loopbackQueue 0x43, ()⟩).code = 1 := by decide +kernel

end UsbMux
