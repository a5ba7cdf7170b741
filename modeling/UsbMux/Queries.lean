/-
# Queries return the record on the wire

A query sends its request, takes the next frame on EP2 IN and checks it in a
fixed order: is it the answer, did the device carry the request out, is the
payload the length of the record. If so the record is read off the payload
field by field, and each reader is the inverse of writing the fields one
after the other, low byte first (`Wire`).

Key definitions: `Wire`, `Matches`, `ReadsRecord`.
Key theorems: `transact_answer`, `query_reads`, `queries_read_records`.
-/
import UsbMux.Pending

namespace UsbMux

open Buffer LittleEndian

variable {σ : Type}

/-! ### Answered requests -/

variable {host : Host σ} {dev : Device} {chType chId msgType opcode : UInt8} {data : Option Bytes} {s s₁ s₂ : σ}

/-- **A `transact` that is answered**: the verdict is on the next frame. -/
theorem transact_answer (hp : (data.getD []).length ≤ 488)
    (hacc : Accepts host dev.timeoutMs s
      (frameBytes (request dev.nextSeq chType chId msgType opcode (data.getD []).length) (data.getD [])) s₁)
    {f : CutFrame} (hd : Delivers host dev.timeoutMs s₁ f.events s₂) (out : Out) (rspCapacity : ℕ) :
    let v := acceptResponse dev.nextSeq chType chId opcode rspCapacity f.header f.bytes out
    transact host dev chType chId msgType opcode data (data.getD []).length out rspCapacity s =
      ⟨v.1, v.2, (nextSeq dev).2, s₂⟩ := by
  have hfits := fits_data hp
  have hframe := buildFrame_eq 0 { Header.zero with
    seq := dev.nextSeq, chType := chType, chId := chId, msgType := msgType, opcode := opcode } hfits
    (host.length_stack s 512).ge
  rw [List.take_length] at hframe
  have hd' : Delivers host (nextSeq dev).2.timeoutMs s₁ f.events s₂ := hd
  have hwritten : let b := buildFrame (host.stack s 512) 512 0 { Header.zero with
        seq := dev.nextSeq, chType := chType, chId := chId, msgType := msgType,
        opcode := opcode } data (data.getD []).length
      Accepts host dev.timeoutMs s (b.dst.take b.frameLen) s₁ := by
    intro b
    rwa [show b = _ from hframe, List.take_left' (length_frameBytes _ _)]
  rw [transact_of_accepts hfits hwritten, receive_of_delivers _ _ f hd']
  simp only [acceptResponse, Out.store_frame]

/-! ### Records on the wire -/

/-- A record is `size` bytes on the wire: `encode` writes its fields,
`parse` reads them. -/
structure Wire {ρ : Type} (size : ℕ) (parse : Bytes → ρ) (encode : ρ → Bytes) : Prop where
  length_encode : ∀ r, (encode r).length = size
  parse_encode : ∀ r, parse (encode r) = r
  encode_parse : ∀ p, p.length = size → encode (parse p) = p

/-- The fields of `ch32mux_dev_info_t` in order. -/
def encodeDevInfo (r : DevInfo) : Bytes :=
  [r.protoVersion, r.fwMajor, r.fwMinor, r.fwPatch, r.uartPortCount, r.bleMaxLinks, r.reserved0, r.reserved1]

def encodeCaps (r : Caps) : Bytes :=
  le32 r.capsBitmap ++ [r.uartPortCount, r.bleMaxLinks, r.netReserved, r.reserved0]

def encodePortCap (r : PortCap) : Bytes :=
  [r.logicPort, r.phyUartId, r.state, r.reserved0] ++ le16 r.rxCapacity ++ le16 r.txCapacity ++
    [r.supportsLineCoding, r.supportsFlush, r.reserved1, r.reserved2]

def encodeUartStats (r : UartStats) : Bytes :=
  le32 r.rxBytes ++ le32 r.txBytes ++ le32 r.dropRxBytes ++ le32 r.dropTxBytes ++
    [r.state, r.dataBits, r.parity, r.stopBits]

def encodeBleCap (r : BleCap) : Bytes :=
  [r.maxLinks, r.supportsScan, r.supportsConnect, r.supportsGatt] ++ le16 r.scanInterval ++ le16 r.scanWindow

theorem readLe32_eq (src : Bytes) (off : ℕ) : readLe32 src off =
    word32 (src.getD off 0) (src.getD (off + 1) 0) (src.getD (off + 2) 0) (src.getD (off + 3) 0) := rfl

theorem wire_devInfo : Wire 8 parseDevInfo encodeDevInfo where
  length_encode _ := rfl
  parse_encode _ := rfl
  encode_parse
    | [_, _, _, _, _, _, _, _], _ => rfl

theorem wire_caps : Wire 8 parseCaps encodeCaps where
  length_encode _ := rfl
  parse_encode r := by simp [parseCaps, encodeCaps, le32, readLe32_eq]
  encode_parse
    | [_, _, _, _, _, _, _, _], _ => by simp [parseCaps, encodeCaps, readLe32_eq]

theorem wire_portCap : Wire 12 parsePortCap encodePortCap where
  length_encode _ := rfl
  parse_encode r := by simp [parsePortCap, encodePortCap, le16, readLe16]
  encode_parse
    | [_, _, _, _, _, _, _, _, _, _, _, _], _ => by simp [parsePortCap, encodePortCap, le16, readLe16]

theorem wire_uartStats : Wire 20 parseUartStats encodeUartStats where
  length_encode _ := rfl
  parse_encode r := by simp [parseUartStats, encodeUartStats, le32, readLe32_eq]
  encode_parse
    | [_, _, _, _, _, _, _, _, _, _, _, _, _, _, _, _, _, _, _, _], _ => by
      simp [parseUartStats, encodeUartStats, readLe32_eq]

theorem wire_bleCap : Wire 8 parseBleCap encodeBleCap where
  length_encode _ := rfl
  parse_encode r := by simp [parseBleCap, encodeBleCap, le16, readLe16]
  encode_parse
    | [_, _, _, _, _, _, _, _], _ => by simp [parseBleCap, encodeBleCap, le16, readLe16]

/-! ### Queries -/

/-- The frame with header `h` is the answer to the request with header `w`,
whatever its status. -/
def Matches (h w : Header) : Prop :=
  h.msgType = MsgType.rsp.code ∧ h.refSeq = w.seq ∧ h.chType = w.chType ∧ h.chId = w.chId ∧ h.opcode = w.opcode

instance (h w : Header) : Decidable (Matches h w) := inferInstanceAs (Decidable (_ ∧ _))

/-- What the caller's local buffer of `size` bytes holds when the payload is
its length. -/
theorem Out.store_query {f : Frame} {buf : Bytes} (hsize : f.header.payloadLen.toNat = buf.length) :
    Out.store ⟨none, some buf, some 0⟩ f.header f.bytes = ⟨none, some (f.bytes.drop 24), some buf.length⟩ := by
  have hlen := f.length_payload
  have hdrop : (f.bytes.drop 24).length = buf.length := by
    rw [List.length_drop, hlen, hsize]
    omega
  have hcopy : writeAt buf 0 ((f.bytes.drop 24).take buf.length) = f.bytes.drop 24 := by
    rw [← hdrop, List.take_length, writeAt_zero, hdrop, List.drop_length, List.append_nil]
  unfold Out.store
  rw [Option.map_some, hsize, Option.map_some, HEADER_LEN, hcopy]
  rfl

/-- The verdict on a frame in the order of its checks. -/
theorem acceptResponse_query (f : Frame) (w : Header) (buf : Bytes) :
    let out : Out := ⟨none, some buf, some 0⟩
    let v := acceptResponse w.seq w.chType w.chId w.opcode buf.length f.header f.bytes out
    (¬Matches f.header w → v = (.errProto, out)) ∧
    (Matches f.header w → f.header.status ≠ DEV_STATUS_OK → v = (.errDeviceStatus, out)) ∧
    (Matches f.header w → f.header.status = DEV_STATUS_OK → buf.length < f.header.payloadLen.toNat →
      v = (.errOverflow, out)) ∧
    (Matches f.header w → f.header.status = DEV_STATUS_OK → f.header.payloadLen.toNat ≤ buf.length →
      v = (.ok, out.store f.header f.bytes)) := by
  intro out v
  have hpass : Matches f.header w → v = if f.header.status ≠ DEV_STATUS_OK then (.errDeviceStatus, out)
      else if f.header.payloadLen.toNat > buf.length then (.errOverflow, out)
      else if f.header.payloadLen ≠ 0 ∧ out.payload.isNone then (.errArg, out)
      else (.ok, out.store f.header f.bytes) := by
    rintro ⟨h1, h2, h3, h4, h5⟩
    apply if_neg
    simp [h1, h2, h3, h4, h5]
  refine ⟨fun hno => acceptResponse_proto.2 hno, fun hm hst => ?_, fun hm hst hbig => ?_, fun hm hst hfit => ?_⟩
  · rw [hpass hm, if_pos hst]
  · rw [hpass hm, if_neg (not_not.mpr hst), if_pos hbig]
  · rw [hpass hm, if_neg (not_not.mpr hst), if_neg (by omega), if_neg (by simp [out])]

/-- **What a query does with the next frame** on EP2 IN, its request on the
channel having been taken: `call` returns OK exactly when the frame is the
answer, with status OK and a payload of `size` bytes, and then stores the
record that `encode` writes as this payload. So no two payloads give the same
record. -/
def ReadsRecord {ρ : Type} (chType chId opcode : UInt8) (size : ℕ) (encode : ρ → Bytes)
    (call : (σ : Type) → Host σ → Device → Option ρ → σ → Reply σ (Option ρ)) : Prop :=
  ∀ (σ : Type) (host : Host σ) (dev : Device) (record : ρ) (s s₁ s₂ : σ) (f : CutFrame),
    let w := request dev.nextSeq chType chId MsgType.cmd.code opcode 0
    let payload := f.bytes.drop 24
    let r := call σ host dev (some record) s
    Accepts host dev.timeoutMs s (frameBytes w []) s₁ → Delivers host dev.timeoutMs s₁ f.events s₂ →
      (Matches f.header w → f.header.status = DEV_STATUS_OK →
        (r.ret = .ok ↔ payload.length = size) ∧ (payload.length < size → r.ret = .errProto) ∧
        (size < payload.length → r.ret = .errOverflow) ∧ (∀ v, payload = encode v → r.out = some v) ∧
        (r.ret = .ok → ∃ v, r.out = some v ∧ payload = encode v)) ∧
      (¬Matches f.header w → r.ret = .errProto) ∧
      (Matches f.header w → f.header.status ≠ DEV_STATUS_OK → r.ret = .errDeviceStatus)

/-- Every query reads its record. -/
theorem query_reads {ρ : Type} {chType chId opcode : UInt8} {size : ℕ} {parse : Bytes → ρ} {encode : ρ → Bytes}
    (hwire : Wire size parse encode) {call : (σ : Type) → Host σ → Device → Option ρ → σ → Reply σ (Option ρ)}
    (hcall : ∀ σ host dev (record : ρ) s, call σ host dev (some record) s =
      query host (transact host dev chType chId MsgType.cmd.code opcode none 0) size parse dev (some record) s) :
    ReadsRecord chType chId opcode size encode call := by
  intro σ host dev record s s₁ s₂ f w payload r hacc hd
  have hbuf := host.length_stack s size
  have hplen : payload.length = f.header.payloadLen.toNat := by
    rw [List.length_drop, f.length_payload]
    omega
  set buf := host.stack s size with hbufdef
  have hnone : ((none : Option Bytes).getD []).length ≤ 488 := Nat.zero_le _
  have hanswer := transact_answer hnone hacc hd ⟨none, some buf, some 0⟩ size
  have hverdict := acceptResponse_query f.toFrame w buf
  rw [hbuf] at hverdict
  dsimp only at hverdict
  set v := acceptResponse w.seq w.chType w.chId w.opcode size f.header f.bytes ⟨none, some buf, some 0⟩
  obtain ⟨hno, hstatus, hbig, hfit⟩ := hverdict
  have hr : r = if v.1 ≠ .ok then ⟨v.1, some record, (nextSeq dev).2, s₂⟩
      else if v.2.len ≠ some size then ⟨.errProto, some record, (nextSeq dev).2, s₂⟩
      else ⟨.ok, v.2.payload.map parse, (nextSeq dev).2, s₂⟩ := by
    rw [show r = _ from hcall σ host dev record s]
    unfold query
    rw [if_neg (by simp), ← hbufdef]
    rw [show transact host dev chType chId MsgType.cmd.code opcode none 0 _ size s = _ from hanswer]
    rfl
  have hshort : Matches f.header w → f.header.status = DEV_STATUS_OK → payload.length < size → r.ret = .errProto := by
    intro hm hst hlt
    rw [hr, hfit hm hst (by omega), if_neg (by simp), if_pos]
    intro hlen
    have : f.header.payloadLen.toNat = size := Option.some.inj hlen
    omega
  have hequal : Matches f.header w → f.header.status = DEV_STATUS_OK → payload.length = size →
      r.ret = .ok ∧ r.out = some (parse payload) := by
    intro hm hst heq
    have hv := hfit hm hst (by omega)
    rw [Out.store_query (by omega), hbuf] at hv
    rw [hr, hv, if_neg (by simp), if_neg (by simp)]
    exact ⟨rfl, rfl⟩
  have hlong : Matches f.header w → f.header.status = DEV_STATUS_OK → size < payload.length → r.ret = .errOverflow := by
    intro hm hst hgt
    rw [hr, hbig hm hst (by omega), if_pos (by simp)]
  have hlength : Matches f.header w → f.header.status = DEV_STATUS_OK → r.ret = .ok → payload.length = size := by
    intro hm hst hok
    rcases Nat.lt_trichotomy payload.length size with hlt | heq | hgt
    · cases (hshort hm hst hlt).symm.trans hok
    · exact heq
    · cases (hlong hm hst hgt).symm.trans hok
  refine ⟨fun hm hst => ⟨⟨hlength hm hst, fun heq => (hequal hm hst heq).1⟩, hshort hm hst, hlong hm hst, ?_, ?_⟩,
    ?_, ?_⟩
  · intro v hv
    have heq : payload.length = size := by rw [hv, hwire.length_encode]
    rw [(hequal hm hst heq).2, hv, hwire.parse_encode]
  · intro hok
    have heq := hlength hm hst hok
    exact ⟨parse payload, (hequal hm hst heq).2, (hwire.encode_parse payload heq).symm⟩
  · intro hm
    rw [hr, hno hm, if_pos (by simp)]
  · intro hm hst
    rw [hr, hstatus hm hst, if_pos (by simp)]

/-- **Queries return the record on the wire**, all five of them. -/
theorem queries_read_records :
    ReadsRecord ChannelType.sys.code 0 SYS_GET_DEV_INFO 8 encodeDevInfo
      (fun _ host dev info s => sysGetDevInfo host dev info s) ∧
    ReadsRecord ChannelType.sys.code 0 SYS_GET_CAPS 8 encodeCaps (fun _ host dev caps s => sysGetCaps host dev caps s) ∧
    (∀ port, ReadsRecord ChannelType.uartCtrl.code port UART_GET_PORT_CAP 12 encodePortCap
      (fun _ host dev cap s => uartGetPortCap host dev port cap s)) ∧
    (∀ port, ReadsRecord ChannelType.uartCtrl.code port UART_GET_STATS 20 encodeUartStats
      (fun _ host dev stats s => uartGetStats host dev port stats s)) ∧
    ReadsRecord ChannelType.bleMgmt.code 0 BLE_GET_CAP 8 encodeBleCap
      (fun _ host dev cap s => bleGetCap host dev cap s) := by
  refine ⟨?_, ?_, fun port => ?_, fun port => ?_, ?_⟩
  · exact query_reads wire_devInfo fun _ _ _ _ _ => rfl
  · exact query_reads wire_caps fun _ _ _ _ _ => rfl
  · exact query_reads wire_portCap fun _ _ _ _ _ => rfl
  · exact query_reads wire_uartStats fun _ _ _ _ _ => rfl
  · exact query_reads wire_bleCap fun _ _ _ _ _ => rfl

/-- The answer to a first GET_CAPS, in one packet. -/
def capsAnswer (caps : Caps) : CutFrame :=
  (Frame.build { Header.zero with
    refSeq := 1, chType := ChannelType.sys.code, msgType := MsgType.rsp.code, opcode := SYS_GET_CAPS } (encodeCaps caps)
    (Nat.le_of_ble_eq_true rfl)).whole (Frame.build_le (Nat.le_of_ble_eq_true rfl))

theorem queries_read_records_caps :
    let r := sysGetCaps (Pipe.host Stack.zero silent) freshDevice (some ⟨0, 0, 0, 0, 0⟩)
      ⟨(capsAnswer ⟨0x01020304, 4, 1, 0, 0⟩).events, ()⟩
    r.ret = .ok ∧ r.out = some ⟨0x01020304, 4, 1, 0, 0⟩ := by
  obtain ⟨hok, -, -⟩ := queries_read_records.2.1 (Pipe Unit) (Pipe.host Stack.zero silent) freshDevice ⟨0, 0, 0, 0, 0⟩
    ⟨(capsAnswer ⟨0x01020304, 4, 1, 0, 0⟩).events, ()⟩ ⟨(capsAnswer ⟨0x01020304, 4, 1, 0, 0⟩).events ++ [], ()⟩ ⟨[], ()⟩
    (capsAnswer ⟨0x01020304, 4, 1, 0, 0⟩) (Pipe.accepts _ _ _ (by decide) _) (Pipe.delivers _ _ _ _ _ _)
  obtain ⟨hret, -, -, hrecord, -⟩ := hok (by decide +kernel) (by decide +kernel)
  exact ⟨hret.mpr (by decide +kernel), hrecord ⟨0x01020304, 4, 1, 0, 0⟩ (by decide +kernel)⟩

end UsbMux
