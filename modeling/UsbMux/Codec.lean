/-
# The header codec, exactly

A header in memory is its image, the 24 bytes `serializeHeader` writes, and
`deserializeHeader` reads the image back. The decoder accepts a byte string
when it starts with the image of a sealed header: one of the right shape
whose CRC field is the CRC of its image with that field zero
(`decodeHeader_eq_ok`). The encoder writes the images of the headers it has
completed (`encodeHeader_eq`), and these are sealed (`complete_sealed`), so
decode undoes build. The other way round holds only below a wrap: the shape
check compares lengths modulo 2^16, and a `payload_len` of 65512 or more
passes it with a `total_len` below 24.

Key definitions: `Header.image`, `Header.Sealed`, `Header.complete`.
Key theorems: `decodeHeader_cases`, `decodeHeader_eq_ok`, `decode_build`,
`encode_decode`.
-/
import UsbMux.Proto

namespace UsbMux

open Buffer LittleEndian

/-! ### The image of a header -/

/-- The 24 bytes of a header, with `crc` in the CRC field. -/
def Header.image (h : Header) (crc : UInt16) : Bytes :=
  [lo8 h.magic, hi8 h.magic, h.version, h.headerLen, lo8 h.totalLen, hi8 h.totalLen,
    lo8 h.seq, hi8 h.seq, lo8 h.refSeq, hi8 h.refSeq, h.chType, h.chId, h.msgType, h.opcode,
    lo8 h.flags, hi8 h.flags, lo8 h.status, hi8 h.status, lo8 h.payloadLen, hi8 h.payloadLen,
    lo8 crc, hi8 crc, lo8 h.reserved, hi8 h.reserved]

@[simp] theorem Header.length_image (h : Header) (crc : UInt16) : (h.image crc).length = 24 := rfl

theorem serializeHeader_append (h : Header) (crc : UInt16) (rest : Bytes) :
    ∀ pre : Bytes, pre.length = 24 → serializeHeader (pre ++ rest) h crc = h.image crc ++ rest
  | [_, _, _, _, _, _, _, _, _, _, _, _, _, _, _, _, _, _, _, _, _, _, _, _], _ => by
    unfold serializeHeader Header.image
    simp [writeLe16]

/-- The image goes over the first 24 bytes, the rest stays. -/
theorem serializeHeader_eq {dst : Bytes} (hd : 24 ≤ dst.length) (h : Header) (crc : UInt16) :
    serializeHeader dst h crc = h.image crc ++ dst.drop 24 := by
  conv_lhs => rw [← List.take_append_drop 24 dst]
  exact serializeHeader_append h crc _ _ (by simp [hd])

theorem deserializeHeader_image (h : Header) (crc : UInt16) (rest : Bytes) :
    deserializeHeader (h.image crc ++ rest) = { h with headerCrc16 := crc } := by
  unfold deserializeHeader Header.image
  simp [readLe16]

theorem image_deserializeHeader_of_length : ∀ src : Bytes, src.length = 24 →
    (deserializeHeader src).image (deserializeHeader src).headerCrc16 = src
  | [_, _, _, _, _, _, _, _, _, _, _, _, _, _, _, _, _, _, _, _, _, _, _, _], _ => by
    simp [deserializeHeader, Header.image, readLe16]

/-- Only the first 24 bytes are read. -/
theorem deserializeHeader_take (src : Bytes) :
    deserializeHeader (src.take 24) = deserializeHeader src := by
  unfold deserializeHeader
  simp [readLe16]

/-- Bytes that start with an image are read as its header. -/
theorem deserializeHeader_of_take {src : Bytes} {h : Header} (ht : src.take 24 = h.image h.headerCrc16) :
    deserializeHeader src = h :=
  calc deserializeHeader src = deserializeHeader (src.take 24) := (deserializeHeader_take src).symm
    _ = deserializeHeader (h.image h.headerCrc16 ++ []) := by rw [ht, List.append_nil]
    _ = h := deserializeHeader_image h h.headerCrc16 []

theorem image_deserializeHeader {src : Bytes} (hs : 24 ≤ src.length) :
    (deserializeHeader src).image (deserializeHeader src).headerCrc16 = src.take 24 := by
  rw [← deserializeHeader_take src]
  exact image_deserializeHeader_of_length _ (by simp [hs])

/-- The decoder's copy with its CRC bytes cleared is the image with CRC 0. -/
theorem image_clear (h : Header) (crc : UInt16) :
    ((h.image crc).set HDR_CRC16_OFFSET 0).set (HDR_CRC16_OFFSET + 1) 0 = h.image 0 := by
  simp [Header.image]
  decide

/-! ### What the decoder accepts -/

/-- A header of the right shape that carries its own CRC. -/
def Header.Sealed (h : Header) : Prop :=
  checkHeaderShape h = .ok ∧ crc16 (h.image 0) 24 = h.headerCrc16

instance (h : Header) : Decidable h.Sealed := inferInstanceAs (Decidable (_ ∧ _))

theorem checkHeaderShape_eq_ok {h : Header} : checkHeaderShape h = .ok ↔
    h.magic = MAGIC ∧ h.version = VERSION ∧ h.headerLen.toNat = 24 ∧
      h.totalLen.toNat = (24 + h.payloadLen.toNat) % 2 ^ 16 ∧ h.totalLen.toNat ≤ 512 := by
  unfold checkHeaderShape
  simp only [HEADER_LEN, MAX_FRAME_LEN]
  constructor
  · intro hk
    split_ifs at hk with h1 h2 h3 h4 h5
    simp only [ne_eq, not_not] at h1 h2 h3 h4
    rw [h3] at h4
    exact ⟨h1, h2, h3, h4, by omega⟩
  · rintro ⟨h1, h2, h3, h4, h5⟩
    rw [if_neg (by simp [h1]), if_neg (by simp [h2]), if_neg (by simp [h3]), if_neg (by rw [h3]; simp [h4]),
      if_neg (by omega)]

/-- **What the decoder does**: it refuses, with the result of the shape check
if that is the reason, or it accepts the header it has read. -/
theorem decodeHeader_cases (src : Bytes) (n : ℕ) :
    decodeHeader src n = .error .errProto ∨
      (checkHeaderShape (deserializeHeader src) ≠ .ok ∧
        decodeHeader src n = .error (checkHeaderShape (deserializeHeader src))) ∨
      (24 ≤ n ∧ checkHeaderShape (deserializeHeader src) = .ok ∧
        crc16 (((src.take 24).set HDR_CRC16_OFFSET 0).set (HDR_CRC16_OFFSET + 1) 0) 24 =
          (deserializeHeader src).headerCrc16 ∧ decodeHeader src n = .ok (deserializeHeader src)) := by
  unfold decodeHeader
  simp only [HEADER_LEN]
  by_cases hn : n < 24
  · exact .inl (if_pos hn)
  rw [if_neg hn]
  by_cases hshape : checkHeaderShape (deserializeHeader src) = .ok
  · rw [hshape]
    dsimp only
    split_ifs with hcrc
    · exact .inl rfl
    · exact .inr (.inr ⟨Nat.not_lt.mp hn, rfl, not_not.mp hcrc, rfl⟩)
  · refine .inr (.inl ⟨hshape, ?_⟩)
    split
    · rename_i hok
      exact absurd hok hshape
    · rfl

theorem decodeHeader_ok_inv {src : Bytes} {n : ℕ} {h : Header} (hd : decodeHeader src n = .ok h) :
    24 ≤ n ∧ deserializeHeader src = h ∧ checkHeaderShape h = .ok ∧
      crc16 (((src.take 24).set HDR_CRC16_OFFSET 0).set (HDR_CRC16_OFFSET + 1) 0) 24 = h.headerCrc16 := by
  obtain herr | ⟨-, herr⟩ | ⟨hn, hshape, hcrc, hok⟩ := decodeHeader_cases src n
  · cases herr.symm.trans hd
  · cases herr.symm.trans hd
  · have hsame : deserializeHeader src = h := Except.ok.inj (hok.symm.trans hd)
    exact ⟨hn, hsame, hsame ▸ hshape, hsame ▸ hcrc⟩

theorem decodeHeader_error_inv {src : Bytes} {n : ℕ} {ret : Result} (hd : decodeHeader src n = .error ret) :
    ret = .errProto ∨ ret ≠ .ok ∧ checkHeaderShape (deserializeHeader src) = ret := by
  obtain herr | ⟨hne, herr⟩ | ⟨-, -, -, hok⟩ := decodeHeader_cases src n
  · exact .inl (Except.error.inj (hd.symm.trans herr))
  · have hret : ret = checkHeaderShape (deserializeHeader src) := Except.error.inj (hd.symm.trans herr)
    exact .inr ⟨hret ▸ hne, hret.symm⟩
  · cases hok.symm.trans hd

theorem le_of_decodeHeader_eq_ok {src : Bytes} {n : ℕ} {h : Header} (hd : decodeHeader src n = .ok h) :
    24 ≤ n := (decodeHeader_ok_inv hd).1

theorem decodeHeader_error_ne_ok {src : Bytes} {n : ℕ} {ret : Result}
    (hd : decodeHeader src n = .error ret) : ret ≠ .ok := by
  obtain hproto | ⟨hne, -⟩ := decodeHeader_error_inv hd
  · simp [hproto]
  · exact hne

/-- **The decoder accepts the images of sealed headers** and nothing else. -/
theorem decodeHeader_eq_ok {src : Bytes} (hs : 24 ≤ src.length) {n : ℕ} {h : Header} :
    decodeHeader src n = .ok h ↔ 24 ≤ n ∧ src.take 24 = h.image h.headerCrc16 ∧ h.Sealed := by
  have him := image_deserializeHeader hs
  have hclear : ((src.take 24).set HDR_CRC16_OFFSET 0).set (HDR_CRC16_OFFSET + 1) 0 =
      (deserializeHeader src).image 0 := by
    rw [← him, image_clear]
  constructor
  · intro hd
    obtain ⟨hn, hsame, hshape, hcrc⟩ := decodeHeader_ok_inv hd
    rw [hclear, hsame] at hcrc
    rw [hsame] at him
    exact ⟨hn, him.symm, hshape, hcrc⟩
  · rintro ⟨hn, ht, hshape, hcrc⟩
    unfold decodeHeader
    simp only [HEADER_LEN]
    rw [hclear, if_neg (by omega), deserializeHeader_of_take ht, hshape]
    simp [hcrc]

theorem deserializeHeader_of_decode {src : Bytes} {n : ℕ} {h : Header} (hd : decodeHeader src n = .ok h) :
    deserializeHeader src = h := (decodeHeader_ok_inv hd).2.1

/-- Bytes 18 and 19 are the payload length. -/
theorem payloadLen_of_decode {src : Bytes} {n : ℕ} {h : Header} (hd : decodeHeader src n = .ok h) :
    readLe16 src HDR_PAYLOAD_LEN_OFFSET = h.payloadLen :=
  congrArg Header.payloadLen (deserializeHeader_of_decode hd)

theorem decodeHeader_image {h : Header} (hh : h.Sealed) (rest : Bytes) {n : ℕ} (hn : 24 ≤ n) :
    decodeHeader (h.image h.headerCrc16 ++ rest) n = .ok h :=
  (decodeHeader_eq_ok (by simp)).mpr ⟨hn, List.take_left' (by simp), hh⟩

/-- The decoder reads no byte past the header, and of the length only whether
it is 24. -/
theorem decodeHeader_congr {a b : Bytes} {m n : ℕ}
    (hab : a.take 24 = b.take 24) (hm : 24 ≤ m) (hn : 24 ≤ n) : decodeHeader a m = decodeHeader b n := by
  unfold decodeHeader
  simp only [HEADER_LEN]
  rw [← deserializeHeader_take a, ← deserializeHeader_take b, hab,
    if_neg (show ¬m < 24 by omega), if_neg (show ¬n < 24 by omega)]

/-- Nor does it matter what stands behind the header. -/
theorem decodeHeader_front {a b : Bytes} {m n : ℕ} (h : a <+: b) (ha : 24 ≤ a.length) (hm : 24 ≤ m) (hn : 24 ≤ n) :
    decodeHeader a m = decodeHeader b n := by
  obtain ⟨rest, rfl⟩ := h
  exact decodeHeader_congr (List.take_append_of_le_length ha).symm hm hn

/-! ### What the encoder writes -/

/-- The header the encoder completes: magic, version, lengths and CRC set,
the rest as the caller gave it. -/
def Header.complete (h : Header) : Header :=
  let h := { h with
    magic := MAGIC
    version := VERSION
    headerLen := 24
    totalLen := UInt16.ofNat (24 + h.payloadLen.toNat)
    headerCrc16 := 0 }
  { h with headerCrc16 := crc16 (h.image 0) 24 }

theorem encodeHeader_eq {dst : Bytes} {n : ℕ} (hn : 24 ≤ n) (hd : 24 ≤ dst.length) {h : Header}
    (hp : h.payloadLen.toNat ≤ 488) : encodeHeader dst n h =
      (.ok, h.complete.image h.complete.headerCrc16 ++ dst.drop 24, h.complete) := by
  unfold encodeHeader
  simp only [HEADER_LEN, MAX_FRAME_LEN]
  rw [if_neg (by omega), if_neg (by omega)]
  rw [serializeHeader_eq hd, serializeHeader_eq (show 24 ≤ (List.replicate 24 (0 : UInt8)).length by simp)]
  simp [Header.complete]

theorem complete_sealed {h : Header} (hp : h.payloadLen.toNat ≤ 488) : h.complete.Sealed := by
  refine ⟨checkHeaderShape_eq_ok.mpr ⟨rfl, rfl, rfl, ?_, ?_⟩, rfl⟩
  · simp [Header.complete]
  · simp [Header.complete]
    omega

/-- A sealed header whose length sum does not wrap is as the encoder would
complete it. -/
theorem Header.Sealed.complete_eq {h : Header} (hh : h.Sealed) (hp : h.payloadLen.toNat ≤ 65511) :
    h.complete = h := by
  obtain ⟨h1, h2, h3, h4, -⟩ := checkHeaderShape_eq_ok.mp hh.1
  have h3' : h.headerLen = 24 := UInt8.toNat_inj.mp h3
  have h4' : UInt16.ofNat (24 + h.payloadLen.toNat) = h.totalLen := by
    apply UInt16.toNat_inj.mp
    rw [h4, UInt16.toNat_ofNat']
  have hcrc := hh.2
  obtain ⟨⟩ := h
  simp only at h1 h2 h3' h4' hcrc
  subst h1 h2 h3'
  simp only [Header.complete, h4', Header.mk.injEq, true_and, and_true]
  exact hcrc

theorem Header.Sealed.totalLen_eq {h : Header} (hh : h.Sealed) (hp : h.payloadLen.toNat ≤ 65511) :
    h.totalLen.toNat = 24 + h.payloadLen.toNat := by
  have h4 := (checkHeaderShape_eq_ok.mp hh.1).2.2.2.1
  rw [h4, Nat.mod_eq_of_lt (by omega)]

theorem Header.Sealed.totalLen_le {h : Header} (hh : h.Sealed) : h.totalLen.toNat ≤ 512 :=
  (checkHeaderShape_eq_ok.mp hh.1).2.2.2.2

/-- A sealed header of a whole frame, of at least 24 bytes, does not wrap. -/
theorem Header.Sealed.totalLen_of_le {h : Header} (hh : h.Sealed) (ht : 24 ≤ h.totalLen.toNat) :
    h.totalLen.toNat = 24 + h.payloadLen.toNat := by
  have h4 := (checkHeaderShape_eq_ok.mp hh.1).2.2.2.1
  have := h.payloadLen.toNat_lt
  omega

/-! ### Decode undoes build -/

/-- The bytes of a frame: the header's image and the payload. -/
def frameBytes (h : Header) (payload : Bytes) : Bytes := h.image h.headerCrc16 ++ payload

@[simp] theorem length_frameBytes (h : Header) (payload : Bytes) :
    (frameBytes h payload).length = 24 + payload.length := by
  simp [frameBytes]

/-- The header a frame is built with. -/
def Header.forLen (h : Header) (payloadLen : ℕ) : Header :=
  ({ h with payloadLen := UInt16.ofNat payloadLen } : Header).complete

theorem forLen_payloadLen {h : Header} {n : ℕ} (hn : n ≤ 488) : (h.forLen n).payloadLen.toNat = n := by
  simp [Header.forLen, Header.complete]
  omega

theorem forLen_sealed {h : Header} {n : ℕ} (hn : n ≤ 488) : (h.forLen n).Sealed := by
  apply complete_sealed
  have : (UInt16.ofNat n).toNat = n := by simp; omega
  simp only [this, hn]

/-- The header of the frame built around `payload`. -/
def Header.forPayload (h : Header) (payload : Bytes) : Header := h.forLen payload.length

/-- When `buildFrame` takes its arguments: the payload is there if it has a
length, and it fits a frame and the frame the buffer. -/
def Fits (n : ℕ) (payload : Option Bytes) (payloadLen : ℕ) : Prop :=
  ¬(payload.isNone ∧ payloadLen ≠ 0) ∧ payloadLen ≤ 488 ∧ 24 + payloadLen ≤ n

instance (n : ℕ) (payload : Option Bytes) (payloadLen : ℕ) : Decidable (Fits n payload payloadLen) :=
  inferInstanceAs (Decidable (_ ∧ _))

/-- The frame goes to the front of the buffer: the header's image, and the
bytes of the payload. -/
theorem buildFrame_eq {dst : Bytes} {n : ℕ} (frameLen : ℕ) (h : Header) {payload : Option Bytes} {payloadLen : ℕ}
    (hfits : Fits n payload payloadLen) (hd : n ≤ dst.length) :
    buildFrame dst n frameLen h payload payloadLen =
      ⟨.ok, frameBytes (h.forLen payloadLen) ((payload.getD []).take payloadLen) ++
        dst.drop (24 + ((payload.getD []).take payloadLen).length), 24 + payloadLen, h.forLen payloadLen⟩ := by
  obtain ⟨harg, hp, hfit⟩ := hfits
  have hlen : (UInt16.ofNat payloadLen).toNat ≤ 488 := by simp; omega
  unfold buildFrame
  rw [if_neg harg, if_neg (by simp only [MAX_FRAME_LEN, HEADER_LEN]; omega), if_neg (by simp; omega)]
  simp only [encodeHeader_eq (show 24 ≤ n by omega) (show 24 ≤ dst.length by omega)
    (h := { h with payloadLen := UInt16.ofNat payloadLen }) hlen]
  have hcopy := writeAt_append ((h.forLen payloadLen).image (h.forLen payloadLen).headerCrc16)
    (dst.drop 24) ((payload.getD []).take payloadLen)
  rw [Header.length_image, List.drop_drop] at hcopy
  by_cases h0 : payloadLen = 0
  · subst h0
    simp [frameBytes, Header.forLen]
  · simp only [ne_eq, h0, not_false_eq_true, if_true]
    exact congrArg (Built.mk .ok · _ _) hcopy

/-- Otherwise nothing is touched. -/
theorem buildFrame_refused (dst : Bytes) {n : ℕ} (frameLen : ℕ) (h : Header) {payload : Option Bytes}
    {payloadLen : ℕ} (hbad : ¬Fits n payload payloadLen) :
    ∃ ret, ret ≠ .ok ∧ buildFrame dst n frameLen h payload payloadLen = ⟨ret, dst, frameLen, h⟩ := by
  unfold buildFrame
  by_cases harg : payload.isNone ∧ payloadLen ≠ 0
  · exact ⟨.errArg, by simp, if_pos harg⟩
  refine ⟨.errOverflow, by simp, ?_⟩
  rw [if_neg harg]
  by_cases hp : payloadLen ≤ 488
  · rw [if_neg (by simp only [MAX_FRAME_LEN, HEADER_LEN]; omega), if_pos]
    simp only [HEADER_LEN]
    by_contra hfit
    exact hbad ⟨harg, hp, by omega⟩
  · rw [if_pos (by simp only [MAX_FRAME_LEN, HEADER_LEN]; omega)]

theorem fits_some {n : ℕ} {payload : Bytes} : Fits n (some payload) payload.length ↔
    payload.length ≤ 488 ∧ 24 + payload.length ≤ n := by
  unfold Fits
  simp

/-- A payload that is all of its data; an empty one may come without a
pointer. -/
theorem fits_data {data : Option Bytes} (hp : (data.getD []).length ≤ 488) : Fits 512 data (data.getD []).length := by
  refine ⟨?_, hp, by omega⟩
  cases data with
  | none => simp
  | some data => simp

/-- The frame around a payload that is all of the argument. -/
theorem buildFrame_payload {dst payload : Bytes} (frameLen : ℕ) (h : Header) (hp : payload.length ≤ 488)
    (hd : 24 + payload.length ≤ dst.length) :
    buildFrame dst dst.length frameLen h (some payload) payload.length =
      ⟨.ok, frameBytes (h.forPayload payload) payload ++ dst.drop (24 + payload.length), 24 + payload.length,
        h.forPayload payload⟩ := by
  rw [buildFrame_eq frameLen h (fits_some.mpr ⟨hp, hd⟩) le_rfl, Option.getD_some, List.take_length]
  rfl

theorem buildFrame_ok {dst : Bytes} {n frameLen : ℕ} {h : Header} {payload : Option Bytes} {payloadLen : ℕ}
    (hd : n ≤ dst.length) :
    (buildFrame dst n frameLen h payload payloadLen).ret = .ok ↔ Fits n payload payloadLen := by
  constructor
  · intro hok
    by_contra hbad
    obtain ⟨ret, hne, hb⟩ := buildFrame_refused dst frameLen h hbad
    rw [hb] at hok
    exact hne hok
  · intro hfits
    rw [buildFrame_eq frameLen h hfits hd]

/-- The bytes of a built frame, as they are sent, decode to its header. -/
theorem decodeHeader_built {dst : Bytes} {n : ℕ} (frameLen : ℕ) (h : Header) {payload : Option Bytes}
    {payloadLen : ℕ} (hfits : Fits n payload payloadLen) (hd : n ≤ dst.length) :
    let b := buildFrame dst n frameLen h payload payloadLen
    (b.dst.take b.frameLen).length = b.frameLen ∧
      decodeHeader (b.dst.take b.frameLen) (b.dst.take b.frameLen).length = .ok (h.forLen payloadLen) := by
  intro b
  have hb : b = _ := buildFrame_eq frameLen h hfits hd
  obtain ⟨-, hp, hfit⟩ := hfits
  have hsrc : ((payload.getD []).take payloadLen).length ≤ payloadLen := List.length_take_le _ _
  have hlen : (b.dst.take b.frameLen).length = b.frameLen := by
    rw [hb]
    simp only [List.length_take, List.length_append, List.length_drop, length_frameBytes]
    omega
  have hge : 24 ≤ b.frameLen := by
    rw [hb]
    exact Nat.le_add_right ..
  refine ⟨hlen, ?_⟩
  rw [← decodeHeader_image (forLen_sealed (h := h) hp) [] hge, hlen]
  apply decodeHeader_congr _ hge hge
  rw [List.take_take, hb]
  simp only [frameBytes, List.append_assoc, List.append_nil]
  rw [Nat.min_eq_left (by omega), List.take_left' (by simp), List.take_of_length_le (by simp)]

/-- The fields of a header that only its author sets. -/
def SameCallerFields (a b : Header) : Prop :=
  a.seq = b.seq ∧ a.refSeq = b.refSeq ∧ a.chType = b.chType ∧ a.chId = b.chId ∧ a.msgType = b.msgType ∧
    a.opcode = b.opcode ∧ a.flags = b.flags ∧ a.status = b.status ∧ a.reserved = b.reserved

/-- **Decode undoes build.** A frame is built exactly when the payload fits a
frame and the frame fits the buffer; the decoder then reads the completed
header back from it, whatever follows, and a call that fails leaves the
buffer, the length and the header as they were. -/
theorem decode_build (dst payload : Bytes) (frameLen : ℕ) (header : Header) :
    let b := buildFrame dst dst.length frameLen header (some payload) payload.length
    (b.ret = .ok ↔ payload.length ≤ 488 ∧ 24 + payload.length ≤ dst.length) ∧
    (b.ret = .ok →
      b.frameLen = 24 + payload.length ∧ b.dst.length = dst.length ∧
      (b.dst.take b.frameLen).drop 24 = payload ∧ b.dst.drop b.frameLen = dst.drop b.frameLen ∧
      SameCallerFields b.header header ∧
      ∀ rest n, 24 ≤ n → decodeHeader (b.dst.take 24 ++ rest) n = .ok b.header) ∧
    (b.ret ≠ .ok → b.dst = dst ∧ b.frameLen = frameLen ∧ b.header = header) := by
  intro b
  by_cases hok : payload.length ≤ 488 ∧ 24 + payload.length ≤ dst.length
  · obtain ⟨hp, hd⟩ := hok
    have hb : b = _ := buildFrame_payload frameLen header hp hd
    have hlen := length_frameBytes (header.forPayload payload) payload
    have htake : b.dst.take 24 = (header.forPayload payload).image (header.forPayload payload).headerCrc16 := by
      simp only [hb, frameBytes, List.append_assoc]
      exact List.take_left' (by simp)
    refine ⟨?_, fun _ => ⟨?_, ?_, ?_, ?_, ?_, ?_⟩, fun hne => absurd (by rw [hb]) hne⟩
    · simp only [hb, true_iff]
      exact ⟨hp, hd⟩
    · rw [hb]
    · simp only [hb, List.length_append, List.length_drop, hlen]
      omega
    · simp only [hb]
      rw [List.take_left' hlen]
      simp [frameBytes, List.drop_append]
    · simp only [hb]
      rw [List.drop_left' hlen]
    · rw [hb]
      exact ⟨rfl, rfl, rfl, rfl, rfl, rfl, rfl, rfl, rfl⟩
    · intro rest n hn
      rw [htake, hb]
      exact decodeHeader_image (forLen_sealed hp) rest hn
  · obtain ⟨ret, hne, hb⟩ := buildFrame_refused dst frameLen header (fun h => hok (fits_some.mp h))
    have hret : b.ret ≠ .ok := by rwa [show b.ret = ret from congrArg Built.ret hb]
    refine ⟨⟨fun h => absurd h hret, fun h => absurd h hok⟩, fun h => absurd h hret, fun _ => ?_⟩
    exact ⟨congrArg Built.dst hb, congrArg Built.frameLen hb, congrArg Built.header hb⟩

/-! ### Encode undoes decode, below the wrap -/

/-- The encoder gives the bytes `src` back for the header `h` decoded from
them, and the lengths of `h` add up. -/
def EncodesBack (src : Bytes) (h : Header) : Prop :=
  h.totalLen.toNat = 24 + h.payloadLen.toNat ∧ 24 ≤ h.totalLen.toNat ∧ h.totalLen.toNat ≤ 512 ∧
    ∀ dst : Bytes, dst.length = 24 → ∃ h', encodeHeader dst 24 h = (.ok, src.take 24, h')

/-- **Encode undoes decode** on an accepted header exactly when its
`payload_len` field, bytes 18 and 19, leaves the length sum below 2^16. -/
theorem encode_decode (src : Bytes) (h : Header) (hs : 24 ≤ src.length)
    (hd : decodeHeader src src.length = .ok h) :
    EncodesBack src h ↔ (readLe16 src HDR_PAYLOAD_LEN_OFFSET).toNat ≤ 65511 := by
  obtain ⟨hn, htake, hh⟩ := (decodeHeader_eq_ok hs).mp hd
  rw [payloadLen_of_decode hd]
  constructor
  · rintro ⟨h1, -, h3, -⟩
    omega
  · intro hp
    have ht := hh.totalLen_eq hp
    have hle := hh.totalLen_le
    refine ⟨ht, by omega, hle, fun dst hdst => ⟨h, ?_⟩⟩
    rw [encodeHeader_eq le_rfl hdst.ge (by omega), hh.complete_eq hp, htake,
      List.drop_eq_nil_of_le hdst.le, List.append_nil]

theorem encode_decode_zero :
    let h := Header.zero.forPayload [0x11]
    EncodesBack (frameBytes h [0x11]) h ↔
      (readLe16 (frameBytes h [0x11]) HDR_PAYLOAD_LEN_OFFSET).toNat ≤ 65511 :=
  encode_decode _ _ (by decide) (by decide +kernel)

/-- A sealed header that wraps: `total_len` 0 and `payload_len` 65512. -/
def wrappedHeader : Header :=
  { Header.zero with
    magic := MAGIC, version := VERSION, headerLen := 24, payloadLen := 65512, headerCrc16 := 0x9A46 }

theorem wrapped_not_encodesBack :
    ¬∀ (src : Bytes) (h : Header), 24 ≤ src.length → decodeHeader src src.length = .ok h →
      EncodesBack src h := by
  intro hall
  have hd : decodeHeader (frameBytes wrappedHeader []) 24 = .ok wrappedHeader := by decide +kernel
  exact absurd (hall (frameBytes wrappedHeader []) wrappedHeader (by decide) hd).1 (by decide)

end UsbMux
