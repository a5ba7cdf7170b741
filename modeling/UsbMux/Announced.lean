/-
# What the device announces

The hints of EP1 IN and the scan results among the events. A hint that is
read without an error is the eight bytes that came (`read_hint_iff`), and a
scan result that is printed, and counted, is the payload of its event up to
the 16th byte (`scan_line_iff`); in both directions, so nothing else counts as
one.

Key definitions: `encodeHint`, `encodeScanResult`.
Key theorems: `parseIrqHint_eq_ok`, `read_hint_iff`,
`bleParseScanResult_eq_ok`, `scan_line_iff`.
-/
import UsbMux.Queries
import UsbMux.Scan

namespace UsbMux

open Buffer LittleEndian

variable {σ : Type}

/-! ### Hints -/

def encodeHint (h : IrqHint) : Bytes :=
  [h.version, h.urgentFlags] ++ le16 h.pendingBitmap ++ le16 h.droppedBitmap ++ le16 h.reserved

/-- The fields of `ch32mux_irq_hint_t`, in order. -/
def parseHint (p : Bytes) : IrqHint := ⟨p.getD 0 0, p.getD 1 0, readLe16 p 2, readLe16 p 4, readLe16 p 6⟩

theorem wire_hint : Wire 8 parseHint encodeHint where
  length_encode _ := rfl
  parse_encode h := by simp [parseHint, encodeHint, le16, readLe16]
  encode_parse
    | [_, _, _, _, _, _, _, _], _ => by simp [parseHint, encodeHint, le16, readLe16]

/-- Eight bytes are a hint if they start with the version. -/
theorem parseIrqHint_eq_ok {p : Bytes} (hp : p.length = 8) {h : IrqHint} :
    parseIrqHint p 8 = .ok h ↔ p = encodeHint h ∧ h.version = IRQ_HINT_VERSION := by
  have hlen : ¬8 < EP_HINT_SIZE := Nat.lt_irrefl 8
  have hversion : (parseHint p).version = p.getD 0 0 := rfl
  unfold parseIrqHint
  rw [if_neg hlen]
  refine ⟨fun hok => ?_, fun hok => ?_⟩
  · by_cases hbad : p.getD 0 0 ≠ IRQ_HINT_VERSION
    · rw [if_pos hbad] at hok
      cases hok
    · rw [if_neg hbad] at hok
      obtain rfl : parseHint p = h := Except.ok.inj hok
      exact ⟨(wire_hint.encode_parse p hp).symm, not_not.mp hbad⟩
  · obtain ⟨rfl, hv⟩ := hok
    exact (if_neg (not_not.mpr hv)).trans (congrArg Except.ok (wire_hint.parse_encode h))

theorem parseIrqHint_error {p : Bytes} {ret : Result} (h : parseIrqHint p 8 = .error ret) : ret = .errProto := by
  unfold parseIrqHint at h
  split_ifs at h
  · exact (Except.error.inj h).symm
  · exact (Except.error.inj h).symm

/-- **A hint is what came.** Whatever the interrupt transfer brings and
however it ends, the read returns OK with a hint exactly when the transfer
succeeded with the eight bytes of that hint, of the version the driver knows.
It returns ERR_PROTO when the transfer succeeded with anything else, and then
leaves the caller's hint alone. -/
theorem read_hint_iff (host : Host σ) (dev : Device) (hint : IrqHint) (s : σ) :
    let x := (host.interruptIn dev.timeoutMs 8 s).1
    let r := readHint host dev hint s
    (∀ h, r.1 = .ok ∧ r.2.1 = h ↔ x.ret = .success ∧ x.data = encodeHint h ∧ h.version = IRQ_HINT_VERSION) ∧
      (r.1 = .errProto ↔ x.ret = .success ∧ ∀ h : IrqHint, h.version = IRQ_HINT_VERSION → x.data ≠ encodeHint h) ∧
      (r.1 = .errProto → r.2.1 = hint) := by
  intro x r
  set s₁ := (host.interruptIn dev.timeoutMs 8 s).2
  have hraw : x.data.length = 8 → writeAt (host.stack s 8) 0 x.data = x.data := fun hlen => by
    have hstack : (host.stack s 8).length = 8 := host.length_stack s 8
    rw [writeAt_zero, hlen, List.drop_of_length_le hstack.le, List.append_nil]
  by_cases hret : x.ret ≠ .success
  · have hr : r = (mapLibusbError x.ret, hint, s₁) := if_pos hret
    have hproto : mapLibusbError x.ret ≠ .errProto := by cases x.ret <;> simp [mapLibusbError]
    rw [hr]
    refine ⟨fun h => iff_of_false (fun hok => ?_) fun hok => hret hok.1, iff_of_false hproto fun hbad => hret hbad.1,
      fun _ => rfl⟩
    exact mapLibusbError_ne_ok x.ret hok.1
  have hsucc : x.ret = .success := not_not.mp hret
  by_cases hlen : x.data.length ≠ 8
  · have hr : r = (.errProto, hint, s₁) := (if_neg hret).trans (if_pos hlen)
    have hno : ∀ h, x.data ≠ encodeHint h := fun h hdata => hlen (by rw [hdata, wire_hint.length_encode])
    rw [hr]
    exact ⟨fun h => iff_of_false (fun hok => by cases hok.1) fun hok => hno h hok.2.1,
      iff_of_true rfl ⟨hsucc, fun h _ => hno h⟩, fun _ => rfl⟩
  have hlen8 : x.data.length = 8 := not_not.mp hlen
  have hparse := fun h => parseIrqHint_eq_ok hlen8 (h := h)
  rcases hp : parseIrqHint x.data 8 with ret | h
  · have hr : r = (ret, hint, s₁) := by
      refine (if_neg hret).trans ((if_neg hlen).trans ?_)
      dsimp only [EP_HINT_SIZE]
      rw [hraw hlen8, hp]
    obtain rfl := parseIrqHint_error hp
    have hno : ∀ h : IrqHint, h.version = IRQ_HINT_VERSION → x.data ≠ encodeHint h := fun h hv hdata => by
      cases hp.symm.trans ((hparse h).mpr ⟨hdata, hv⟩)
    rw [hr]
    exact ⟨fun h => iff_of_false (fun hok => by cases hok.1) fun hok => hno h hok.2.2 hok.2.1,
      iff_of_true rfl ⟨hsucc, hno⟩, fun _ => rfl⟩
  · have hr : r = (.ok, h, s₁) := by
      refine (if_neg hret).trans ((if_neg hlen).trans ?_)
      dsimp only [EP_HINT_SIZE]
      rw [hraw hlen8, hp]
    obtain ⟨hdata, hv⟩ := (hparse h).mp hp
    rw [hr]
    refine ⟨fun h' => ⟨fun hok => ?_, fun hok => ⟨rfl, ?_⟩⟩, iff_of_false (by simp) fun hbad => hbad.2 h hv hdata, ?_⟩
    · obtain rfl : h = h' := hok.2
      exact ⟨hsucc, hdata, hv⟩
    · have hsame := hp.symm.trans ((hparse h').mpr hok.2)
      exact Except.ok.inj hsame
    · intro hbad
      cases hbad

/-! ### Scan results -/

def encodeScanResult (r : ScanResult) : Bytes :=
  [r.addrType, r.eventType, r.rssi.toUInt8, r.advLen] ++ r.addr ++ r.advPrefix

/-- The arrays of `ch32mux_ble_scan_result_t` hold six bytes each. -/
def ScanResult.Sized (r : ScanResult) : Prop := r.addr.length = 6 ∧ r.advPrefix.length = 6

theorem exists_four : ∀ {p : Bytes}, 4 ≤ p.length → ∃ b₀ b₁ b₂ b₃ rest, p = b₀ :: b₁ :: b₂ :: b₃ :: rest
  | b₀ :: b₁ :: b₂ :: b₃ :: rest, _ => ⟨b₀, b₁, b₂, b₃, rest, rfl⟩

/-- A payload is a scan result up to its 16th byte. -/
theorem bleParseScanResult_eq_ok {p : Bytes} {r : ScanResult} :
    bleParseScanResult p p.length = .ok r ↔ r.Sized ∧ ∃ more, p = encodeScanResult r ++ more := by
  unfold bleParseScanResult
  refine ⟨fun hok => ?_, fun hok => ?_⟩
  · by_cases hlen : p.length < 16
    · rw [if_pos hlen] at hok
      cases hok
    rw [if_neg hlen] at hok
    obtain rfl := Except.ok.inj hok
    obtain ⟨b₀, b₁, b₂, b₃, rest, rfl⟩ := exists_four (show 4 ≤ p.length by omega)
    simp only [List.length_cons, not_lt] at hlen
    have haddr : (rest.take 6).length = 6 := by rw [List.length_take]; omega
    have hprefix : ((rest.drop 6).take 6).length = 6 := by rw [List.length_take, List.length_drop]; omega
    have hrest : rest = rest.take 6 ++ (rest.drop 6).take 6 ++ rest.drop 12 := by
      rw [List.append_assoc, ← List.drop_drop (i := 6) (j := 6), List.take_append_drop, List.take_append_drop]
    refine ⟨⟨haddr, hprefix⟩, rest.drop 12, ?_⟩
    simp only [encodeScanResult, List.getD_cons_zero, List.getD_cons_succ, UInt8.toUInt8_toInt8, List.drop_succ_cons,
      List.drop_zero, List.cons_append, List.nil_append]
    exact congrArg (b₀ :: b₁ :: b₂ :: b₃ :: ·) hrest
  · obtain ⟨⟨haddr, hprefix⟩, more, rfl⟩ := hok
    have hlen : ¬(encodeScanResult r ++ more).length < 16 := by
      simp only [encodeScanResult, List.length_append, List.length_cons, List.length_nil, haddr, hprefix]
      omega
    rw [if_neg hlen]
    have hdrop : (r.addr ++ (r.advPrefix ++ more)).drop 6 = r.advPrefix ++ more := List.drop_left' haddr
    simp [encodeScanResult, List.append_assoc, List.take_left' haddr, List.take_left' hprefix, hdrop]

/-- The event is a scan response: the header says so. -/
def IsScanRsp (h : Header) : Prop :=
  h.chType = ChannelType.bleMgmt.code ∧ h.chId = 0 ∧ h.opcode = BLE_EVT_SCAN_RSP

/-- What is printed for a frame, as a scan result. -/
theorem scanEvent_result (f : Frame) (n : UInt32) (r : ScanResult) :
    scanEvent n f.header (f.bytes.drop HEADER_LEN) f.header.payloadLen.toNat = (.scan n r, n + 1) ↔
      IsScanRsp f.header ∧ r.Sized ∧ ∃ more, f.bytes = f.bytes.take HEADER_LEN ++ encodeScanResult r ++ more := by
  set p := f.bytes.drop HEADER_LEN with hp
  have hlen : f.header.payloadLen.toNat = p.length := by
    have hpayload := f.length_payload
    rw [hp, List.length_drop]
    simp only [HEADER_LEN]
    omega
  have hcut : ∀ b : Bytes, f.bytes = f.bytes.take HEADER_LEN ++ b ↔ p = b := fun b => by
    nth_rewrite 1 [← List.take_append_drop HEADER_LEN f.bytes]
    exact List.append_right_inj _
  simp only [List.append_assoc, hcut, ← bleParseScanResult_eq_ok]
  rw [hlen]
  by_cases hrsp : IsScanRsp f.header
  · rw [and_iff_right hrsp]
    rcases hparse : bleParseScanResult p p.length with ret | result
    · have he : scanEvent n f.header p p.length = (.scanParseFailed ret, n) := by
        refine (if_pos hrsp).trans ?_
        rw [hparse]
      rw [he]
      exact iff_of_false (fun h => by cases (Prod.mk.inj h).1) fun h => by cases h
    · have he : scanEvent n f.header p p.length = (.scan n result, n + 1) := by
        refine (if_pos hrsp).trans ?_
        rw [hparse]
      rw [he]
      refine ⟨fun h => ?_, fun h => ?_⟩
      · obtain ⟨-, hresult⟩ := Line.scan.inj (Prod.mk.inj h).1
        rw [hresult]
      · rw [Except.ok.inj h]
  · have he : scanEvent n f.header p p.length = (.event f.header.chType f.header.chId f.header.opcode p.length, n) :=
      if_neg hrsp
    rw [he]
    exact iff_of_false (fun h => by cases (Prod.mk.inj h).1) fun h => hrsp h.1

/-- **A scan result that is printed** is the one on the wire: for every frame
and every number of reports so far, the loop prints a result under a number
exactly when the number is the next one, the frame is a scan response and its
payload starts with the 16 bytes of that result. The event is counted then,
and no other is. -/
theorem scan_line_iff (f : Frame) (n : UInt32) :
    let e := scanEvent n f.header (f.bytes.drop HEADER_LEN) f.header.payloadLen.toNat
    (∀ number r, e.1 = .scan number r ↔ number = n ∧ IsScanRsp f.header ∧ r.Sized ∧
        ∃ more, f.bytes = f.bytes.take HEADER_LEN ++ encodeScanResult r ++ more) ∧
      (e.2 = n + 1 ↔ ∃ r, e.1 = .scan n r) ∧ (e.2 = n ↔ ∀ number r, e.1 ≠ .scan number r) := by
  intro e
  have hne : n + 1 ≠ n := by simp
  simp only [← scanEvent_result f n]
  rcases scanEvent_cases n f.header (f.bytes.drop HEADER_LEN) f.header.payloadLen.toNat with
    ⟨r', hscan⟩ | ⟨hother, hsame⟩
  · rw [show e = _ from hscan]
    refine ⟨fun number r => ⟨fun h => ?_, fun h => ?_⟩, iff_of_true rfl ⟨r', rfl⟩, iff_of_false hne fun h => h n r' rfl⟩
    · obtain ⟨rfl, rfl⟩ := Line.scan.inj h
      exact ⟨rfl, hscan⟩
    · obtain ⟨rfl, hresult⟩ := h
      exact (Prod.mk.inj (hscan.symm.trans hresult)).1
  · have hno : ∀ number r, e.1 ≠ .scan number r := fun number r h => by
      have hnumber : e.1.number = some number := congrArg Line.number h
      cases hother.symm.trans hnumber
    refine ⟨fun number r => iff_of_false (hno number r) fun h => ?_, iff_of_false ?_ fun ⟨r, h⟩ => hno n r h,
      iff_of_true hsame hno⟩
    · exact hno n r (congrArg Prod.fst h.2)
    · rw [show e.2 = n from hsame]
      exact hne.symm

end UsbMux
