/-
# The debug transfer

`ch32mux_debug_bulk_transfer` and `cmd_debug_xfer`, which asks for the device
information by hand: one transfer out, one packet in, and if the header in it
announces more, one more transfer for the rest. It does without the driver's
loops, so a short write goes unnoticed and a header cut in two is an error;
and the transfer for the rest does not count for the exit code. The raw line
shows the packet, the line after it all the bytes (`debug_xfer_runs`).

Key definitions: `debugBulkTransfer`, `cmdDebugXfer`, `DebugRun`, `dumpsOf`.
Key theorems: `debugBulkTransfer_in`, `debug_xfer_runs`.
-/
import UsbMux.Commands
import UsbMux.Bounded

namespace UsbMux

open Buffer

variable {σ : Type} (host : Host σ)

/-! ### One transfer -/

/-- `CH32MUX_EP_FRAME_IN` and `CH32MUX_EP_FRAME_OUT`. -/
inductive Endpoint
  | frameIn | frameOut
  deriving DecidableEq, Repr

/-- What `ch32mux_debug_bulk_transfer` leaves: its result, the caller's buffer,
`*transferred` and `*libusb_status`, and the host. -/
structure DebugXfer (σ : Type) where
  ret : Result
  data : Option Bytes
  transferred : Option ℕ
  libusbStatus : Option LibusbError
  state : σ

/-- The result for what libusb returned. -/
def debugResult (status : LibusbError) : Result := if status ≠ .success then mapLibusbError status else .ok

theorem debugResult_ok {status : LibusbError} : debugResult status = .ok ↔ status = .success := by
  cases status <;> simp [debugResult, mapLibusbError]

/-- `ch32mux_debug_bulk_transfer`. -/
def debugBulkTransfer (endpoint : Endpoint) (data : Option Bytes) (length : ℤ) (transferred : Option ℕ) (timeoutMs : ℕ)
    (libusbStatus : Option LibusbError) (s : σ) : DebugXfer σ :=
  match data with
  | none => ⟨.errArg, none, transferred, libusbStatus, s⟩
  | some data =>
    if length ≤ 0 then ⟨.errArg, some data, transferred, libusbStatus, s⟩
    else
      let (status, n, data, s) := match endpoint with
        | .frameIn =>
          let (x, s) := host.bulkIn timeoutMs length.toNat s
          (x.ret, x.data.length, writeAt data 0 x.data, s)
        | .frameOut =>
          let (x, s) := host.bulkOut timeoutMs (data.take length.toNat) s
          (x.ret, x.transferred, data, s)
      ⟨debugResult status, some data, transferred.map fun _ => n, libusbStatus.map fun _ => status, s⟩

/-! ### The command -/

/-- The header `cmd_debug_xfer` makes. -/
def debugHeader (seq : UInt16) : Header :=
  { Header.zero with
    seq := seq, chType := ChannelType.sys.code, chId := 0, msgType := MsgType.cmd.code, opcode := SYS_GET_DEV_INFO }

/-- `cmd_debug_xfer` from the decode on, with `n` bytes in `in` and the lines
printed so far. -/
def debugResponse (dev : Device) (inBytes : Bytes) (n : ℕ) (lines : List Line) (s : σ) : Cmd σ :=
  match decodeHeader inBytes n with
  | .error ret => ⟨1, lines ++ [.decoded ret], dev, s⟩
  | .ok rsp =>
    let lines := lines ++ [.decoded .ok, .response rsp]
    if rsp.totalLen > UInt16.ofNat n ∧ rsp.totalLen.toNat ≤ MAX_FRAME_LEN then
      let m := debugBulkTransfer host .frameIn (some (inBytes.drop n)) (rsp.totalLen.toNat - n) (some 0)
        dev.timeoutMs (some .success) s
      let inBytes := inBytes.take n ++ m.data.getD []
      let more := m.transferred.getD 0
      ⟨0, lines ++ [.bulkInRemainder m.ret (m.libusbStatus.getD .success) more] ++
        if more > 0 then [.combined (inBytes.take (n + more))] else [], dev, m.state⟩
    else ⟨0, lines, dev, s⟩

/-- `cmd_debug_xfer`. -/
def cmdDebugXfer (dev : Device) (s : σ) : Cmd σ :=
  let out := host.stack s MAX_FRAME_LEN
  let seq := (nextSeq dev).1
  let dev := (nextSeq dev).2
  let b := buildFrame out MAX_FRAME_LEN 0 (debugHeader seq) none 0
  if b.ret ≠ .ok then ⟨1, [.buildFailed b.ret], dev, s⟩
  else
    let o := debugBulkTransfer host .frameOut (some b.dst) b.frameLen (some 0) dev.timeoutMs (some .success) s
    let lines := [.timeout dev.timeoutMs, .sending (b.dst.take b.frameLen),
      .bulkOut o.ret (o.libusbStatus.getD .success) (o.transferred.getD 0)]
    if o.ret ≠ .ok then ⟨1, lines, dev, o.state⟩
    else
      let i := debugBulkTransfer host .frameIn (some (List.replicate MAX_FRAME_LEN 0)) EP_PACKET_SIZE (some 0)
        dev.timeoutMs (some .success) o.state
      let inBytes := i.data.getD []
      let n := i.transferred.getD 0
      let lines := lines ++ [.bulkIn i.ret (i.libusbStatus.getD .success) n] ++
        if n > 0 then [.raw (inBytes.take n)] else []
      if i.ret ≠ .ok then ⟨1, lines, dev, i.state⟩ else debugResponse host dev inBytes n lines i.state

/-! ### How it ends -/

theorem ends_of_ite {p : Prop} [Decidable p] {dev : Device} {a b : Cmd σ} (ha : a.code ≤ 1 ∧ a.dev = dev)
    (hb : b.code ≤ 1 ∧ b.dev = dev) : (if p then a else b).code ≤ 1 ∧ (if p then a else b).dev = dev := by
  split
  · exact ha
  · exact hb

theorem debugResponse_ends (dev : Device) (inBytes : Bytes) (n : ℕ) (lines : List Line) (s : σ) :
    let r := debugResponse host dev inBytes n lines s
    r.code ≤ 1 ∧ r.dev = dev := by
  intro r
  unfold r debugResponse
  split
  · exact ⟨le_rfl, rfl⟩
  · exact ends_of_ite ⟨Nat.zero_le 1, rfl⟩ ⟨Nat.zero_le 1, rfl⟩

/-- However the command ends, it has drawn one number. -/
theorem cmdDebugXfer_ends (dev : Device) (s : σ) :
    let r := cmdDebugXfer host dev s
    r.code ≤ 1 ∧ r.dev = (nextSeq dev).2 := by
  intro r
  unfold r cmdDebugXfer
  dsimp only
  refine ends_of_ite ⟨le_rfl, rfl⟩ ?_
  refine ends_of_ite ⟨le_rfl, rfl⟩ ?_
  refine ends_of_ite ⟨le_rfl, rfl⟩ ?_
  exact debugResponse_ends host ..

/-! ### What it does -/

variable {host}

/-- A transfer in, of a length that is positive. -/
theorem debugBulkTransfer_in {t n : ℕ} {s s' : σ} {x : InXfer} (h : host.bulkIn t n s = (x, s')) (hn : 0 < n)
    (data : Bytes) :
    debugBulkTransfer host .frameIn (some data) n (some 0) t (some .success) s =
      ⟨debugResult x.ret, some (writeAt data 0 x.data), some x.data.length, some x.ret, s'⟩ := by
  have hpos : ¬(n : ℤ) ≤ 0 := by omega
  simp only [debugBulkTransfer, if_neg hpos, Int.toNat_natCast, h, Option.map_some]

theorem debugBulkTransfer_out {t n : ℕ} {s s' : σ} {x : OutXfer} {data : Bytes}
    (h : host.bulkOut t (data.take n) s = (x, s')) (hn : 0 < n) :
    debugBulkTransfer host .frameOut (some data) n (some 0) t (some .success) s =
      ⟨debugResult x.ret, some data, some x.transferred, some x.ret, s'⟩ := by
  have hpos : ¬(n : ℤ) ≤ 0 := by omega
  simp only [debugBulkTransfer, if_neg hpos, Int.toNat_natCast, h, Option.map_some]

/-- The transfers of the command, and its exit code. -/
inductive DebugRun (frame : Bytes) : List Event → ℕ → Prop
  | notSent {o : OutXfer} (hsent : o.ret ≠ .success) : DebugRun frame [.bulkOut frame o] 1
  | noHeader {o : OutXfer} {i : InXfer} (hsent : o.ret = .success)
      (hread : i.ret ≠ .success ∨ ∃ ret, decodeHeader i.data i.data.length = .error ret) :
      DebugRun frame [.bulkOut frame o, .bulkIn 64 i] 1
  | whole {o : OutXfer} {i : InXfer} {h : Header} (hsent : o.ret = .success) (hread : i.ret = .success)
      (hdec : decodeHeader i.data i.data.length = .ok h) (hall : h.totalLen.toNat ≤ i.data.length) :
      DebugRun frame [.bulkOut frame o, .bulkIn 64 i] 0
  | rest {o : OutXfer} {i x : InXfer} {h : Header} (hsent : o.ret = .success) (hread : i.ret = .success)
      (hdec : decodeHeader i.data i.data.length = .ok h) (hmore : i.data.length < h.totalLen.toNat)
      (hfit : h.totalLen.toNat ≤ 512) :
      DebugRun frame [.bulkOut frame o, .bulkIn 64 i, .bulkIn (h.totalLen.toNat - i.data.length) x] 0

def Line.received : Line → Option Bytes
  | raw bytes => some bytes
  | combined bytes => some bytes
  | _ => none

/-- The bytes that were shown last as received. -/
def shown (lines : List Line) : Bytes := (lines.filterMap Line.received).getLast?.getD []

def Line.isDump : Line → Bool
  | raw _ => true
  | combined _ => true
  | _ => false

/-- The lines that show what was received. -/
def dumps (lines : List Line) : List Line := lines.filter Line.isDump

/-- What is shown of the transfers: the first packet that came in, and with
the rest all of it. Nothing is shown for a transfer without bytes. -/
def dumpsOf : List Event → List Line
  | [_, .bulkIn _ i] => if i.data.length > 0 then [.raw i.data] else []
  | [_, .bulkIn _ i, .bulkIn _ x] =>
    (if i.data.length > 0 then [.raw i.data] else []) ++
      if x.data.length > 0 then [.combined (i.data ++ x.data)] else []
  | _ => []

theorem dumps_append (a b : List Line) : dumps (a ++ b) = dumps a ++ dumps b := List.filter_append ..

/-- Nothing is shown for a transfer without bytes. -/
theorem dumps_if {line : Line} (h : line.isDump) (n : ℕ) :
    dumps (if n > 0 then [line] else []) = if n > 0 then [line] else [] := by
  unfold dumps
  split_ifs
  · exact List.filter_cons_of_pos h
  · rfl

theorem shown_dumps (lines : List Line) : shown lines = shown (dumps lines) := by
  unfold shown dumps
  rw [List.filterMap_filter]
  have hdump : Line.received = fun line => if line.isDump then line.received else none := by
    funext line
    cases line <;> rfl
  rw [← hdump]

/-- The last of them shows all that was received. -/
theorem DebugRun.shown {frame : Bytes} {evs : List Event} {code : ℕ} (h : DebugRun frame evs code) :
    shown (dumpsOf evs) = received evs := by
  have hpacket : ∀ i : InXfer, UsbMux.shown (if i.data.length > 0 then [.raw i.data] else []) = i.data := fun i => by
    split_ifs with hi
    · rfl
    · exact (List.eq_nil_of_length_eq_zero (by omega)).symm
  cases h with
  | notSent hsent => rfl
  | noHeader hsent hread => exact (hpacket _).trans (List.append_nil _).symm
  | whole hsent hread hdec hall => exact (hpacket _).trans (List.append_nil _).symm
  | @rest o i x h hsent hread hdec hmore hfit =>
    have hrec : received [.bulkOut frame o, .bulkIn 64 i, .bulkIn (h.totalLen.toNat - i.data.length) x] =
        i.data ++ x.data :=
      congrArg (i.data ++ ·) (List.append_nil _)
    rw [hrec]
    unfold dumpsOf
    dsimp only
    by_cases hx : x.data.length > 0
    · rw [if_pos hx]
      unfold UsbMux.shown
      rw [List.filterMap_append,
        show [Line.combined (i.data ++ x.data)].filterMap Line.received = [i.data ++ x.data] from rfl,
        List.getLast?_append_of_ne_nil _ (List.cons_ne_nil _ _)]
      rfl
    · have hnil : x.data = [] := List.eq_nil_of_length_eq_zero (by omega)
      rw [if_neg hx, List.append_nil, hnil, List.append_nil]
      exact hpacket i

/-- The decoder reads what was received. -/
theorem decodeHeader_append (a b : Bytes) : decodeHeader (a ++ b) a.length = decodeHeader a a.length := by
  by_cases ha : a.length < 24
  · unfold decodeHeader
    rw [if_pos (show a.length < HEADER_LEN from ha), if_pos (show a.length < HEADER_LEN from ha)]
  · exact (decodeHeader_front (List.prefix_append a b) (by omega) (by omega) (by omega)).symm

/-- What is done with the packet, from the transfers so far on. -/
theorem debugResponse_runs {dev dev' : Device} {frame zeros : Bytes} {o : OutXfer} {i : InXfer} {lines : List Line}
    {s s₂ : σ}
    (hmakes : Makes host dev.timeoutMs s [.bulkOut frame o, .bulkIn 64 i] s₂) (hsent : o.ret = .success)
    (hread : i.ret = .success) (hle : i.data.length ≤ 64)
    (hlines : dumps lines = if i.data.length > 0 then [.raw i.data] else [])
    (htimeout : dev'.timeoutMs = dev.timeoutMs) :
    let r := debugResponse host dev' (i.data ++ zeros) i.data.length lines s₂
    ∃ evs, Makes host dev.timeoutMs s evs r.state ∧ DebugRun frame evs r.code ∧ r.dev = dev' ∧
      dumps r.lines = dumpsOf evs := by
  intro r
  have hdec := decodeHeader_append i.data zeros
  rcases hhdr : decodeHeader i.data i.data.length with ret | h
  · have hr : r = ⟨1, lines ++ [.decoded ret], dev', s₂⟩ := by
      unfold r debugResponse
      rw [hdec, hhdr]
    rw [hr]
    refine ⟨_, hmakes, .noHeader hsent (.inr ⟨ret, hhdr⟩), rfl, ?_⟩
    rw [dumps_append]
    exact (List.append_nil _).trans hlines
  set lines' := lines ++ [.decoded .ok, .response h] with hl
  have hlines' : dumps lines' = if i.data.length > 0 then [.raw i.data] else [] := by
    rw [hl, dumps_append]
    exact (List.append_nil _).trans hlines
  have hcast : (UInt16.ofNat i.data.length).toNat = i.data.length := by
    rw [UInt16.toNat_ofNat', Nat.mod_eq_of_lt (by omega)]
  by_cases hmore : h.totalLen > UInt16.ofNat i.data.length ∧ h.totalLen.toNat ≤ 512
  · have hlt : i.data.length < h.totalLen.toNat := by
      have := UInt16.lt_iff_toNat_lt.mp hmore.1
      omega
    rcases hin : host.bulkIn dev.timeoutMs (h.totalLen.toNat - i.data.length) s₂ with ⟨x, s₃⟩
    have hm := debugBulkTransfer_in hin (by omega) zeros
    have hall : (i.data ++ writeAt zeros 0 x.data).take (i.data.length + x.data.length) = i.data ++ x.data := by
      rw [writeAt_zero, ← List.append_assoc, ← List.length_append, List.take_left]
    have hr : r = ⟨0, lines' ++ [.bulkInRemainder (debugResult x.ret) x.ret x.data.length] ++
        if x.data.length > 0 then [.combined (i.data ++ x.data)] else [], dev', s₃⟩ := by
      unfold r debugResponse
      rw [hdec, hhdr]
      refine (if_pos hmore).trans ?_
      dsimp only
      rw [List.drop_left, List.take_left, htimeout, ← Nat.cast_sub hlt.le, hm]
      dsimp only [Option.getD_some]
      rw [hall]
    rw [hr]
    refine ⟨_, hmakes.append (b := [.bulkIn _ x]) ⟨s₃, hin, rfl⟩, .rest hsent hread hhdr hlt hmore.2, rfl, ?_⟩
    have hskip : dumps [.bulkInRemainder (debugResult x.ret) x.ret x.data.length] = [] := rfl
    rw [dumps_append, dumps_append, hlines', hskip, List.append_nil, dumps_if rfl]
    rfl
  · have hr : r = ⟨0, lines', dev', s₂⟩ := by
      unfold r debugResponse
      rw [hdec, hhdr]
      exact if_neg hmore
    rw [hr]
    refine ⟨_, hmakes, .whole hsent hread hhdr ?_, rfl, hlines'⟩
    by_contra hlt
    apply hmore ⟨UInt16.lt_iff_toNat_lt.mpr ?_, decoded_totalLen_le hhdr⟩
    omega

theorem cmdDebugXfer_runs (dev : Device) (s : σ) :
    let r := cmdDebugXfer host dev s
    ∃ evs, Makes host dev.timeoutMs s evs r.state ∧
      DebugRun (Frame.build (debugHeader dev.nextSeq) [] nil_fits).bytes evs r.code ∧ r.dev = (nextSeq dev).2 ∧
      dumps r.lines = dumpsOf evs := by
  intro r
  set dev' := (nextSeq dev).2
  set frame := (Frame.build (debugHeader dev.nextSeq) [] nil_fits).bytes
  have hlen : frame.length = 24 := length_frameBytes _ []
  set b := buildFrame (host.stack s 512) 512 0 (debugHeader dev.nextSeq) none 0
  obtain ⟨rest, hb⟩ : ∃ rest, b = ⟨.ok, frame ++ rest, 24, (debugHeader dev.nextSeq).forLen 0⟩ :=
    ⟨_, buildFrame_eq 0 (debugHeader dev.nextSeq) fits_none (host.length_stack s 512).ge⟩
  have hbuilt : ∀ c : Cmd σ, (if b.ret ≠ .ok then ⟨1, [.buildFailed b.ret], dev', s⟩ else c) = c :=
    fun c => if_neg (by rw [hb]; simp)
  have hchunk : b.dst.take b.frameLen = frame := by rw [hb]; exact List.take_left' hlen
  -- the request goes out
  rcases hout : host.bulkOut dev.timeoutMs frame s with ⟨o, s₁⟩
  set xo := debugBulkTransfer host .frameOut (some b.dst) b.frameLen (some 0) dev'.timeoutMs (some .success) s
  have hxo : xo = ⟨debugResult o.ret, some b.dst, some o.transferred, some o.ret, s₁⟩ :=
    debugBulkTransfer_out (by rw [hchunk]; exact hout) (by rw [hb]; exact Nat.succ_pos 23)
  set sent : List Line := [.timeout dev.timeoutMs, .sending (b.dst.take b.frameLen),
    .bulkOut xo.ret (xo.libusbStatus.getD .success) (xo.transferred.getD 0)]
  by_cases hsent : xo.ret ≠ .ok
  · have hr : r = ⟨1, sent, dev', xo.state⟩ := (hbuilt _).trans (if_pos hsent)
    rw [hr, hxo]
    rw [hxo] at hsent
    exact ⟨[.bulkOut frame o], ⟨s₁, hout, rfl⟩, .notSent (mt debugResult_ok.mpr hsent), rfl, rfl⟩
  have hsent' : o.ret = .success := by
    rw [hxo] at hsent
    exact debugResult_ok.mp (not_not.mp hsent)
  -- a packet comes in
  rcases hin : host.bulkIn dev.timeoutMs 64 s₁ with ⟨i, s₂⟩
  have hle : i.data.length ≤ 64 := host.length_le_of_bulkIn hin
  set xi := debugBulkTransfer host .frameIn (some (List.replicate 512 0)) (64 : ℕ) (some 0) dev'.timeoutMs
    (some .success)
    xo.state
  have hxi : xi =
      ⟨debugResult i.ret, some (writeAt (List.replicate 512 0) 0 i.data), some i.data.length, some i.ret, s₂⟩ :=
    debugBulkTransfer_in (by rw [hxo]; exact hin) (Nat.succ_pos 63) _
  have hmakes : Makes host dev.timeoutMs s [.bulkOut frame o, .bulkIn 64 i] s₂ := ⟨s₁, hout, s₂, hin, rfl⟩
  set read := sent ++ [.bulkIn xi.ret (xi.libusbStatus.getD .success) (xi.transferred.getD 0)] ++
    if xi.transferred.getD 0 > 0 then [.raw ((xi.data.getD []).take (xi.transferred.getD 0))] else []
  have hread : dumps read = if i.data.length > 0 then [.raw i.data] else [] := by
    unfold read
    rw [dumps_append, dumps_if rfl, hxi]
    dsimp only [Option.getD_some]
    rw [writeAt_zero, List.take_left]
    rfl
  by_cases hok : xi.ret ≠ .ok
  · have hr : r = ⟨1, read, dev', xi.state⟩ := (hbuilt _).trans ((if_neg hsent).trans (if_pos hok))
    rw [hr]
    refine ⟨_, by rw [hxi]; exact hmakes, .noHeader hsent' (.inl ?_), rfl, ?_⟩
    · rw [hxi] at hok
      exact mt debugResult_ok.mpr hok
    · exact hread
  have hr : r = debugResponse host dev' (xi.data.getD []) (xi.transferred.getD 0) read xi.state :=
    (hbuilt _).trans ((if_neg hsent).trans (if_neg hok))
  have hok' : i.ret = .success := by
    rw [hxi] at hok
    exact debugResult_ok.mp (not_not.mp hok)
  rw [hr, hxi]
  dsimp only [Option.getD_some]
  rw [writeAt_zero]
  exact debugResponse_runs hmakes hsent' hok' hle hread rfl

/-- **The debug transfer.** The command sends the request in one transfer and
reads twice at most: a packet, and what the header in it announces beyond
that, into what is left of its 512 bytes. It exits with 0 exactly when the
transfer out and the first one in succeeded and that brought a header, however
much of the request was taken and whatever the second one brought. It shows
the packet that came in, and when there is more all the bytes; so the bytes
it shows last are those it received. -/
theorem debug_xfer_runs (dev : Device) (s : σ) :
    let r := cmdDebugXfer host dev s
    ∃ evs, Makes host dev.timeoutMs s evs r.state ∧
      DebugRun (Frame.build (debugHeader dev.nextSeq) [] nil_fits).bytes evs r.code ∧ r.dev = (nextSeq dev).2 ∧
      dumps r.lines = dumpsOf evs ∧ shown r.lines = received evs := by
  obtain ⟨evs, hmakes, hrun, hdev, hdumps⟩ := cmdDebugXfer_runs dev s
  refine ⟨evs, hmakes, hrun, hdev, hdumps, ?_⟩
  rw [shown_dumps, hdumps, hrun.shown]

end UsbMux
