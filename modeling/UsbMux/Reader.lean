/-
# What a read hands over

The reader against any host. Its loop keeps an invariant (`ReadInv`): the
bytes received so far stand at the front of the caller's buffer, they fit
it, and the target is 24 until 24 bytes are there and the decoded
`total_len` from then on. So a read that returns OK hands over the first
`total_len` of the bytes it received (`readFrame_spec`). That is a whole
frame exactly when the header's length sum does not wrap: a wrapped header
announces fewer than 24 bytes.

Key definitions: `ReadInv`, `WholeFrame`.
Key theorems: `readLoop_spec`, `readFrame_spec`, `read_whole_frame`.
-/
import UsbMux.Codec
import UsbMux.Device
import UsbMux.Pipe

namespace UsbMux

open Buffer

variable {σ : Type}

/-! ### Narrowing -/

theorem sizeSub_of_le {a b : ℕ} (ha : a < 2 ^ 64) (hb : b ≤ a) : sizeSub a b = a - b := by
  unfold sizeSub
  omega

/-- An `int` is never above the value it was narrowed from. -/
theorem asInt_le (n : ℕ) : asInt n ≤ n := by
  unfold asInt Int.bmod
  simp only [Nat.cast_pow, Nat.cast_ofNat]
  split <;> omega

theorem asInt_of_lt {n : ℕ} (h : n < 2 ^ 31) : asInt n = n := by
  unfold asInt Int.bmod
  simp only [Nat.cast_pow, Nat.cast_ofNat]
  split <;> omega

/-- A frame's length is far from where a `size_t` or an `int` ends. -/
theorem maxFrameLen_lt_size : 512 < 2 ^ 64 := by norm_num

theorem maxFrameLen_lt_int : 512 < 2 ^ 31 := by norm_num

/-! ### The loop -/

/-- The state of the read loop: `R` is what this call has received, `buf`
what the caller's buffer of `cap` bytes held before. -/
structure ReadInv (cap : ℕ) (buf R : Bytes) (targetLen : ℕ) (frame : Bytes) : Prop where
  frame_eq : frame = R ++ buf.drop R.length
  le_cap : R.length ≤ cap
  target : R.length < 24 ∧ targetLen = 24 ∨
    24 ≤ R.length ∧ ∃ h, decodeHeader R R.length = .ok h ∧ targetLen = h.totalLen.toNat

theorem ReadInv.init {cap : ℕ} (buf : Bytes) : ReadInv cap buf [] HEADER_LEN buf :=
  ⟨rfl, Nat.zero_le _, Or.inl ⟨by simp, rfl⟩⟩

/-- A round that decodes nothing leaves the target what it is for the bytes. -/
theorem target_append {R data : Bytes} {targetLen : ℕ} (hsame : ¬(targetLen = 24 ∧ 24 ≤ (R ++ data).length))
    (h : R.length < 24 ∧ targetLen = 24 ∨
      24 ≤ R.length ∧ ∃ h, decodeHeader R R.length = .ok h ∧ targetLen = h.totalLen.toNat) :
    (R ++ data).length < 24 ∧ targetLen = 24 ∨
      24 ≤ (R ++ data).length ∧
        ∃ h, decodeHeader (R ++ data) (R ++ data).length = .ok h ∧ targetLen = h.totalLen.toNat := by
  rcases h with ⟨-, ht⟩ | ⟨h24, h, hdec, ht⟩
  · exact Or.inl ⟨Nat.lt_of_not_le fun h24 => hsame ⟨ht, h24⟩, ht⟩
  · have hlen : 24 ≤ (R ++ data).length := by
      rw [List.length_append]
      omega
    refine Or.inr ⟨hlen, h, ?_, ht⟩
    rw [← hdec]
    exact (decodeHeader_front (List.prefix_append ..) h24 h24 hlen).symm

/-- The request of a round fits behind what is there. -/
theorem request_le {cap offset : ℕ} (hcap : cap < 2 ^ 64) (ho : offset ≤ cap)
    (hpos : ¬asInt (sizeSub cap offset) ≤ 0) :
    offset + (clampToPacket (asInt (sizeSub cap offset))).toNat ≤ cap := by
  have h := asInt_le (sizeSub cap offset)
  rw [sizeSub_of_le hcap ho] at *
  unfold clampToPacket
  split <;> omega

/-- A round of the loop keeps the bytes in order and in the buffer. -/
theorem round_stores {cap : ℕ} {buf R frame data : Bytes} (hframe : frame = R ++ buf.drop R.length)
    (hle : R.length ≤ cap) (hcap : cap < 2 ^ 64) (hpos : ¬asInt (sizeSub cap R.length) ≤ 0)
    (hgot : data.length ≤ (clampToPacket (asInt (sizeSub cap R.length))).toNat) :
    writeAt frame R.length data = (R ++ data) ++ buf.drop (R ++ data).length ∧ (R ++ data).length ≤ cap := by
  refine ⟨by rw [hframe, writeAt_append, List.drop_drop, List.length_append], ?_⟩
  calc (R ++ data).length = R.length + data.length := List.length_append
    _ ≤ R.length + (clampToPacket (asInt (sizeSub cap R.length))).toNat := Nat.add_le_add_left hgot _
    _ ≤ cap := request_le hcap hle hpos

/-- A round of the loop, from what its transfer brought. -/
theorem readLoop_round {host : Host σ} {dev : Device} {cap offset targetLen : ℕ} {frame : Bytes} {s s₁ : σ}
    {x : InXfer} (hlt : offset < targetLen) (hc : ¬asInt (sizeSub cap offset) ≤ 0)
    (hx : host.bulkIn dev.timeoutMs (clampToPacket (asInt (sizeSub cap offset))).toNat s = (x, s₁)) :
    readLoop host dev cap offset targetLen frame s =
      if x.ret ≠ .success then ⟨mapLibusbError x.ret, writeAt frame offset x.data, 0, s₁⟩
      else if x.data.length = 0 then ⟨.errIo, writeAt frame offset x.data, 0, s₁⟩
      else if targetLen = HEADER_LEN ∧ offset + x.data.length ≥ HEADER_LEN then
        match decodeHeader (writeAt frame offset x.data) (offset + x.data.length) with
        | .error ret => ⟨ret, writeAt frame offset x.data, 0, s₁⟩
        | .ok header =>
          if header.totalLen.toNat > cap then ⟨.errOverflow, writeAt frame offset x.data, 0, s₁⟩
          else readLoop host dev cap (offset + x.data.length) header.totalLen.toNat (writeAt frame offset x.data) s₁
      else readLoop host dev cap (offset + x.data.length) targetLen (writeAt frame offset x.data) s₁ := by
  obtain ⟨rfl, rfl⟩ := Prod.ext_iff.mp hx
  rw [readLoop, if_pos hlt]
  exact if_neg hc

/-- **The read loop.** It makes transfers, at least one if it wants bytes and
has room for them. When it returns OK, what they brought, behind the `R` it
started with, satisfies the invariant for the length it reports. -/
theorem readLoop_spec (host : Host σ) (dev : Device) {cap : ℕ} (hcap : cap < 2 ^ 64) (buf : Bytes)
    (offset targetLen : ℕ) (frame : Bytes) (s : σ) :
    let r := readLoop host dev cap offset targetLen frame s
    ∃ evs, Makes host dev.timeoutMs s evs r.state ∧ offered evs = [] ∧
      (offset < targetLen → 0 < asInt (sizeSub cap offset) → ∃ n x rest, evs = .bulkIn n x :: rest) ∧
      ∀ R : Bytes, R.length = offset → ReadInv cap buf R targetLen frame → r.ret = .ok →
        ReadInv cap buf (R ++ received evs) r.frameLen r.frame ∧ r.frameLen ≤ (R ++ received evs).length := by
  fun_induction readLoop host dev cap offset targetLen frame s with
  | case1 offset targetLen frame s hlt capacity hc =>
    -- the capacity narrows to nothing
    exact ⟨[], rfl, rfl, fun _ h => absurd h (by omega), fun R _ _ h => by cases h⟩
  | case2 offset targetLen frame s hlt capacity hc x s₁ hx frame₁ hret =>
    refine ⟨[.bulkIn _ x], ⟨s₁, hx, rfl⟩, rfl, fun _ _ => ⟨_, x, [], rfl⟩, fun R _ _ h => ?_⟩
    exact absurd h (mapLibusbError_ne_ok _)
  | case3 offset targetLen frame s hlt capacity hc x s₁ hx frame₁ hret hdata =>
    exact ⟨[.bulkIn _ x], ⟨s₁, hx, rfl⟩, rfl, fun _ _ => ⟨_, x, [], rfl⟩, fun R _ _ h => by cases h⟩
  | case4 offset targetLen frame s hlt capacity hc x s₁ hx frame₁ hret hdata offset₁ htgt ret hdec =>
    refine ⟨[.bulkIn _ x], ⟨s₁, hx, rfl⟩, rfl, fun _ _ => ⟨_, x, [], rfl⟩, fun R _ _ h => ?_⟩
    exact absurd h (decodeHeader_error_ne_ok hdec)
  | case5 offset targetLen frame s hlt capacity hc x s₁ hx frame₁ hret hdata offset₁ htgt header hdec hbig =>
    exact ⟨[.bulkIn _ x], ⟨s₁, hx, rfl⟩, rfl, fun _ _ => ⟨_, x, [], rfl⟩, fun R _ _ h => by cases h⟩
  | case6 offset targetLen frame s hlt capacity hc x s₁ hx frame₁ hret hdata offset₁ htgt header hdec hbig ih =>
    -- the header is there: its length is the new target
    obtain ⟨evs, hm, hoff, -, hok⟩ := ih
    refine ⟨.bulkIn _ x :: evs, ⟨s₁, hx, hm⟩, hoff, fun _ _ => ⟨_, x, evs, rfl⟩, ?_⟩
    rintro R rfl hi hret'
    obtain ⟨hframe, hle⟩ := round_stores hi.frame_eq hi.le_cap hcap hc (host.length_le_of_bulkIn hx)
    have hlen : (R ++ x.data).length = offset₁ := by simp [offset₁]
    have h24 : 24 ≤ offset₁ := htgt.2
    have hdec' : decodeHeader (R ++ x.data) (R ++ x.data).length = .ok header := by
      rw [← hdec, show frame₁ = _ from hframe]
      exact decodeHeader_front (List.prefix_append ..) (by omega) (by omega) (by omega)
    rw [received, ← List.append_assoc]
    exact hok (R ++ x.data) hlen ⟨hframe, hle, Or.inr ⟨by omega, header, hdec', rfl⟩⟩ hret'
  | case7 offset targetLen frame s hlt capacity hc x s₁ hx frame₁ hret hdata offset₁ htgt ih =>
    obtain ⟨evs, hm, hoff, -, hok⟩ := ih
    refine ⟨.bulkIn _ x :: evs, ⟨s₁, hx, hm⟩, hoff, fun _ _ => ⟨_, x, evs, rfl⟩, ?_⟩
    rintro R rfl hi hret'
    obtain ⟨hframe, hle⟩ := round_stores hi.frame_eq hi.le_cap hcap hc (host.length_le_of_bulkIn hx)
    have hlen : (R ++ x.data).length = offset₁ := by simp [offset₁]
    have htarget := target_append (by rwa [hlen]) hi.target
    rw [received, ← List.append_assoc]
    exact hok (R ++ x.data) hlen ⟨hframe, hle, htarget⟩ hret'
  | case8 offset targetLen frame s hlt =>
    refine ⟨[], rfl, rfl, fun h => absurd h hlt, ?_⟩
    rintro R rfl hi -
    rw [received, List.append_nil]
    exact ⟨hi, Nat.le_of_not_lt hlt⟩

/-- **A read that returns OK** hands over the first `frameLen` of the bytes
it received, and `frameLen` is the `total_len` of the header they start
with. -/
theorem readFrame_spec (host : Host σ) (dev : Device) {cap : ℕ} (hcap : cap < 2 ^ 64) (buf : Bytes)
    (frameLen : ℕ) (s : σ) :
    let r := readFrame host dev buf cap frameLen s
    ∃ evs, Makes host dev.timeoutMs s evs r.state ∧ offered evs = [] ∧
      (r.ret = .ok → 24 ≤ (received evs).length ∧ r.frameLen ≤ (received evs).length ∧
        r.frame = received evs ++ buf.drop (received evs).length ∧
        ∃ h, decodeHeader (received evs) (received evs).length = .ok h ∧ r.frameLen = h.totalLen.toNat) := by
  intro r
  by_cases hsmall : cap < HEADER_LEN
  · have hr : r = ⟨.errOverflow, buf, frameLen, s⟩ := by simp only [r, readFrame, if_pos hsmall]
    exact ⟨[], by rw [hr]; exact rfl, rfl, fun h => by rw [hr] at h; cases h⟩
  have hr : r = readLoop host dev cap 0 HEADER_LEN buf s := by simp only [r, readFrame, if_neg hsmall]
  obtain ⟨evs, hm, hoff, -, hok⟩ := readLoop_spec host dev hcap buf 0 HEADER_LEN buf s
  rw [← hr] at hm hok
  refine ⟨evs, hm, hoff, fun h => ?_⟩
  obtain ⟨⟨hframe, -, htarget⟩, hle⟩ := hok [] rfl (ReadInv.init buf) h
  simp only [List.nil_append] at hframe htarget hle
  rcases htarget with ⟨hlt, ht⟩ | ⟨h24, hdr, hdec, ht⟩
  · omega
  · exact ⟨h24, hle, hframe, hdr, hdec, ht⟩

/-! ### Whole frames -/

/-- What a read handed over is a frame: at least a header, all of it received
in this call, its own header decoding to its own length. -/
def WholeFrame {τ : Type} (r : FrameRead (τ × List Event)) : Prop :=
  24 ≤ r.frameLen ∧ r.frameLen ≤ (received r.state.2).length ∧
    ∃ h, decodeHeader r.frame r.frameLen = .ok h ∧ h.totalLen.toNat = r.frameLen ∧
      h.payloadLen.toNat = r.frameLen - 24

/-- **A successful read is a whole frame** exactly when the `payload_len`
field received, bytes 18 and 19, leaves the length sum below 2^16. -/
theorem read_whole_frame (host : Host σ) (dev : Device) (cap : ℕ) (hcap : cap < 2 ^ 64) (buf : Bytes)
    (frameLen : ℕ) (s : σ)
    (hok : (readFrame host.logged dev buf cap frameLen (s, [])).ret = .ok) :
    WholeFrame (readFrame host.logged dev buf cap frameLen (s, [])) ↔
      (readLe16 (received (readFrame host.logged dev buf cap frameLen (s, [])).state.2)
        HDR_PAYLOAD_LEN_OFFSET).toNat ≤ 65511 := by
  obtain ⟨evs, hm, -, hspec⟩ := readFrame_spec host.logged dev hcap buf frameLen (s, [])
  obtain ⟨hR, hle, hframe, h, hdec, hlen⟩ := hspec hok
  have hlog := hm.log
  rw [List.nil_append] at hlog
  obtain ⟨-, -, hh⟩ := (decodeHeader_eq_ok hR).mp hdec
  unfold WholeFrame
  rw [hlog, payloadLen_of_decode hdec]
  constructor
  · rintro ⟨hge, -, -⟩
    have := hh.totalLen_of_le (by omega)
    have := hh.totalLen_le
    omega
  · intro hp
    have ht := hh.totalLen_eq hp
    refine ⟨by omega, hle, h, ?_, hlen.symm, by omega⟩
    rw [hframe, ← hdec]
    exact (decodeHeader_front (List.prefix_append ..) hR hR (by omega)).symm

theorem read_whole_frame_zero :
    let frame := frameBytes (Header.zero.forPayload [0x11]) [0x11]
    let r := readFrame (Pipe.host Stack.zero silent).logged freshDevice (List.replicate 512 0) 512 0
      (⟨[.packet frame], ()⟩, [])
    WholeFrame r ↔ (readLe16 (received r.state.2) HDR_PAYLOAD_LEN_OFFSET).toNat ≤ 65511 :=
  read_whole_frame _ _ 512 (by decide) _ 0 _ (by decide +kernel)

/-- The wrapped header is a successful read of no frame. -/
theorem wrapped_not_whole :
    ¬∀ (host : Host (Pipe Unit)) (dev : Device) (cap : ℕ) (buf : Bytes) (frameLen : ℕ) (s : Pipe Unit),
      24 ≤ cap → cap < 2 ^ 64 → (readFrame host.logged dev buf cap frameLen (s, [])).ret = .ok →
      WholeFrame (readFrame host.logged dev buf cap frameLen (s, [])) := by
  intro hall
  have hw := hall (Pipe.host Stack.zero silent) freshDevice 512 (List.replicate 512 0) 0
    ⟨[.packet (frameBytes wrappedHeader [])], ()⟩ (by decide) (by decide) (by decide +kernel)
  exact absurd hw.1 (by decide +kernel)

end UsbMux
