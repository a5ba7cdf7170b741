/-
# The read loop stays in its buffer

The reader again, with a trace: every transfer with the offset it stores at
and the length it asks for, and every decode with the bytes it looks at. The
trace changes nothing (`tracedLoop_read`), and its transfers are those the
host makes (`tracedLoop_makes`).

The device chooses the loop's bound, but a header that is accepted announces
at most 512 bytes and every transfer that lets the loop go on brings at least
one. So the number of transfers is bounded by the bytes still missing from
512, and a decode leaves the loop with 24 bytes or more, where it does not
decode again.

Key definitions: `ReadAct`, `tracedLoop`, `tracedRead`, `InBounds`.
Key theorems: `tracedLoop_read`, `tracedLoop_rounds`, `tracedLoop_inBounds`,
`tracedLoop_transfers`, `tracedLoop_decodes`, `read_bounded`.
-/
import UsbMux.Reader

namespace UsbMux

open Buffer

variable {σ : Type}

/-! ### The trace -/

/-- A thing the read loop does: a transfer into the buffer at `offset` asking
for `length` bytes, or the decode of `len` bytes of the buffer. -/
inductive ReadAct
  | transfer (offset length : ℕ) (x : InXfer)
  | decode (src : Bytes) (len : ℕ)
  deriving DecidableEq, Repr

/-- What a traced read leaves. -/
structure TracedRead (σ : Type) where
  acts : List ReadAct
  read : FrameRead σ

/-- The act comes before what a traced read does. -/
def TracedRead.after (acts : List ReadAct) (r : TracedRead σ) : TracedRead σ := ⟨acts ++ r.acts, r.read⟩

/-- `readLoop` with its trace. -/
def tracedLoop (host : Host σ) (dev : Device) (frameCapacity offset targetLen : ℕ) (frame : Bytes) (s : σ) :
    TracedRead σ :=
  if offset < targetLen then
    let capacity := asInt (sizeSub frameCapacity offset)
    if capacity ≤ 0 then ⟨[], .errOverflow, frame, 0, s⟩
    else
      match host.bulkIn dev.timeoutMs (clampToPacket capacity).toNat s with
      | (x, s) =>
        let act := .transfer offset (clampToPacket capacity).toNat x
        let frame := writeAt frame offset x.data
        if x.ret ≠ .success then ⟨[act], mapLibusbError x.ret, frame, 0, s⟩
        else if x.data.length = 0 then ⟨[act], .errIo, frame, 0, s⟩
        else
          let offset := offset + x.data.length
          if targetLen = HEADER_LEN ∧ offset ≥ HEADER_LEN then
            match decodeHeader frame offset with
            | .error ret => ⟨[act, .decode frame offset], ret, frame, 0, s⟩
            | .ok header =>
              if header.totalLen.toNat > frameCapacity then
                ⟨[act, .decode frame offset], .errOverflow, frame, 0, s⟩
              else
                (tracedLoop host dev frameCapacity offset header.totalLen.toNat frame s).after
                  [act, .decode frame offset]
          else (tracedLoop host dev frameCapacity offset targetLen frame s).after [act]
  else ⟨[], .ok, frame, targetLen, s⟩
termination_by max targetLen frameCapacity - offset

/-- `readFrame` with its trace. -/
def tracedRead (host : Host σ) (dev : Device) (frame : Bytes) (frameCapacity frameLen : ℕ) (s : σ) :
    TracedRead σ :=
  if frameCapacity < HEADER_LEN then ⟨[], .errOverflow, frame, frameLen, s⟩
  else tracedLoop host dev frameCapacity 0 HEADER_LEN frame s

/-- The transfers of a trace, as the host sees them. -/
def eventsOf : List ReadAct → List Event
  | [] => []
  | .transfer _ length x :: acts => .bulkIn length x :: eventsOf acts
  | .decode _ _ :: acts => eventsOf acts

/-- The number of headers decoded. -/
def decodeCount : List ReadAct → ℕ
  | [] => 0
  | .transfer _ _ _ :: acts => decodeCount acts
  | .decode _ _ :: acts => decodeCount acts + 1

/-- What the trace of a read into `cap` bytes must be once `R` has been
received. Each transfer stores behind what is there, asks for a packet at
most and has room for it; a decode looks at what was received, a header at
least. -/
def InBounds (cap : ℕ) : Bytes → List ReadAct → Prop
  | _, [] => True
  | R, .transfer offset length x :: acts =>
    offset = R.length ∧ 1 ≤ length ∧ length ≤ 64 ∧ offset + length ≤ cap ∧ InBounds cap (R ++ x.data) acts
  | R, .decode src len :: acts => 24 ≤ R.length ∧ len = R.length ∧ src.take len = R ∧ InBounds cap R acts

/-- The trace changes nothing. -/
theorem tracedLoop_read (host : Host σ) (dev : Device) (cap offset targetLen : ℕ) (frame : Bytes) (s : σ) :
    (tracedLoop host dev cap offset targetLen frame s).read = readLoop host dev cap offset targetLen frame s := by
  fun_induction tracedLoop host dev cap offset targetLen frame s with
  | case1 offset targetLen frame s hlt capacity hc =>
    rw [readLoop, if_pos hlt]
    exact (if_pos hc).symm
  | case2 offset targetLen frame s hlt capacity hc x s₁ hx act frame₁ hret =>
    rw [readLoop_round hlt hc hx, if_pos hret]
  | case3 offset targetLen frame s hlt capacity hc x s₁ hx act frame₁ hret hdata =>
    rw [readLoop_round hlt hc hx, if_neg hret, if_pos hdata]
  | case4 offset targetLen frame s hlt capacity hc x s₁ hx act frame₁ hret hdata offset₁ htgt ret hdec =>
    rw [readLoop_round hlt hc hx, if_neg hret, if_neg hdata, if_pos htgt,
      show decodeHeader (writeAt frame offset x.data) (offset + x.data.length) = _ from hdec]
  | case5 offset targetLen frame s hlt capacity hc x s₁ hx act frame₁ hret hdata offset₁ htgt header hdec hbig =>
    rw [readLoop_round hlt hc hx, if_neg hret, if_neg hdata, if_pos htgt,
      show decodeHeader (writeAt frame offset x.data) (offset + x.data.length) = _ from hdec]
    exact (if_pos hbig).symm
  | case6 offset targetLen frame s hlt capacity hc x s₁ hx act frame₁ hret hdata offset₁ htgt header hdec hbig ih =>
    rw [readLoop_round hlt hc hx, if_neg hret, if_neg hdata, if_pos htgt,
      show decodeHeader (writeAt frame offset x.data) (offset + x.data.length) = _ from hdec]
    exact ih.trans (if_neg hbig).symm
  | case7 offset targetLen frame s hlt capacity hc x s₁ hx act frame₁ hret hdata offset₁ htgt ih =>
    rw [readLoop_round hlt hc hx, if_neg hret, if_neg hdata, if_neg htgt]
    exact ih
  | case8 offset targetLen frame s hlt =>
    rw [readLoop, if_neg hlt]

/-- The transfers of the trace are those the host makes. -/
theorem tracedLoop_makes (host : Host σ) (dev : Device) (cap offset targetLen : ℕ) (frame : Bytes) (s : σ) :
    let r := tracedLoop host dev cap offset targetLen frame s
    Makes host dev.timeoutMs s (eventsOf r.acts) r.read.state := by
  fun_induction tracedLoop host dev cap offset targetLen frame s with
  | case1 offset targetLen frame s hlt capacity hc => exact rfl
  | case2 offset targetLen frame s hlt capacity hc x s₁ hx act frame₁ hret => exact ⟨s₁, hx, rfl⟩
  | case3 offset targetLen frame s hlt capacity hc x s₁ hx act frame₁ hret hdata => exact ⟨s₁, hx, rfl⟩
  | case4 offset targetLen frame s hlt capacity hc x s₁ hx act frame₁ hret hdata offset₁ htgt ret hdec =>
    exact ⟨s₁, hx, rfl⟩
  | case5 offset targetLen frame s hlt capacity hc x s₁ hx act frame₁ hret hdata offset₁ htgt header hdec hbig =>
    exact ⟨s₁, hx, rfl⟩
  | case6 offset targetLen frame s hlt capacity hc x s₁ hx act frame₁ hret hdata offset₁ htgt header hdec hbig ih =>
    exact ⟨s₁, hx, ih⟩
  | case7 offset targetLen frame s hlt capacity hc x s₁ hx act frame₁ hret hdata offset₁ htgt ih =>
    exact ⟨s₁, hx, ih⟩
  | case8 offset targetLen frame s hlt => exact rfl

/-! ### Its bounds -/

/-- Any header that decodes announces a frame that fits the limit. -/
theorem decoded_totalLen_le {src : Bytes} {n : ℕ} {h : Header} (hd : decodeHeader src n = .ok h) :
    h.totalLen.toNat ≤ 512 := by
  obtain ⟨-, -, hshape, -⟩ := decodeHeader_ok_inv hd
  exact (checkHeaderShape_eq_ok.mp hshape).2.2.2.2

/-- A round asks for a packet at most, and for no more than there is room. -/
theorem request_bounds {cap offset : ℕ} (hcap : cap < 2 ^ 64) (ho : offset ≤ cap)
    (hpos : ¬asInt (sizeSub cap offset) ≤ 0) :
    1 ≤ (clampToPacket (asInt (sizeSub cap offset))).toNat ∧
      (clampToPacket (asInt (sizeSub cap offset))).toNat ≤ 64 ∧
      offset + (clampToPacket (asInt (sizeSub cap offset))).toNat ≤ cap := by
  refine ⟨?_, ?_, request_le hcap ho hpos⟩
  · unfold clampToPacket EP_PACKET_SIZE
    split <;> omega
  · unfold clampToPacket EP_PACKET_SIZE
    split <;> omega

/-! ### The rounds -/

/-- What a round that has received `len` bytes decodes, and the target it
leaves: nothing, or the header its transfer has completed. -/
def Decodes (targetLen len : ℕ) (frame : Bytes) (acts : List ReadAct) (targetLen' : ℕ) : Prop :=
  acts = [] ∧ targetLen' = targetLen ∨
    acts = [.decode frame len] ∧ targetLen = HEADER_LEN ∧ HEADER_LEN ≤ len ∧ targetLen' ≤ 512

/-- **Induction on the rounds of the loop.** What holds of the trace of a loop
that stops, and of a round if it holds of the rounds after it, holds of the
trace of every loop. A round that brought nothing is the last. -/
theorem tracedLoop_rounds (host : Host σ) (dev : Device) {cap : ℕ} {P : ℕ → ℕ → Bytes → List ReadAct → Prop}
    (stop : ∀ offset targetLen frame, P offset targetLen frame [])
    (round : ∀ offset targetLen targetLen' frame x decodes acts, offset < targetLen →
      ¬asInt (sizeSub cap offset) ≤ 0 → x.data.length ≤ (clampToPacket (asInt (sizeSub cap offset))).toNat →
      acts = [] ∨ 0 < x.data.length →
      Decodes targetLen (offset + x.data.length) (writeAt frame offset x.data) decodes targetLen' →
      P (offset + x.data.length) targetLen' (writeAt frame offset x.data) acts →
      P offset targetLen frame
        (.transfer offset (clampToPacket (asInt (sizeSub cap offset))).toNat x :: (decodes ++ acts)))
    (offset targetLen : ℕ) (frame : Bytes) (s : σ) :
    P offset targetLen frame (tracedLoop host dev cap offset targetLen frame s).acts := by
  fun_induction tracedLoop host dev cap offset targetLen frame s with
  | case1 offset targetLen frame s hlt capacity hc => exact stop offset targetLen frame
  | case2 offset targetLen frame s hlt capacity hc x s₁ hx act frame₁ hret =>
    exact round _ _ targetLen _ x [] [] hlt hc (host.length_le_of_bulkIn hx) (.inl rfl) (.inl ⟨rfl, rfl⟩) (stop _ _ _)
  | case3 offset targetLen frame s hlt capacity hc x s₁ hx act frame₁ hret hdata =>
    exact round _ _ targetLen _ x [] [] hlt hc (host.length_le_of_bulkIn hx) (.inl rfl) (.inl ⟨rfl, rfl⟩) (stop _ _ _)
  | case4 offset targetLen frame s hlt capacity hc x s₁ hx act frame₁ hret hdata offset₁ htgt ret hdec =>
    have hdecodes : Decodes targetLen offset₁ frame₁ [.decode frame₁ offset₁] 0 :=
      .inr ⟨rfl, htgt.1, htgt.2, Nat.zero_le _⟩
    exact round _ _ 0 _ x _ [] hlt hc (host.length_le_of_bulkIn hx) (.inl rfl) hdecodes (stop _ _ _)
  | case5 offset targetLen frame s hlt capacity hc x s₁ hx act frame₁ hret hdata offset₁ htgt header hdec hbig =>
    have hdecodes : Decodes targetLen offset₁ frame₁ [.decode frame₁ offset₁] 0 :=
      .inr ⟨rfl, htgt.1, htgt.2, Nat.zero_le _⟩
    exact round _ _ 0 _ x _ [] hlt hc (host.length_le_of_bulkIn hx) (.inl rfl) hdecodes (stop _ _ _)
  | case6 offset targetLen frame s hlt capacity hc x s₁ hx act frame₁ hret hdata offset₁ htgt header hdec hbig ih =>
    have hdecodes : Decodes targetLen offset₁ frame₁ [.decode frame₁ offset₁] header.totalLen.toNat :=
      .inr ⟨rfl, htgt.1, htgt.2, decoded_totalLen_le hdec⟩
    exact round _ _ _ _ x _ _ hlt hc (host.length_le_of_bulkIn hx) (.inr (Nat.pos_of_ne_zero hdata)) hdecodes ih
  | case7 offset targetLen frame s hlt capacity hc x s₁ hx act frame₁ hret hdata offset₁ htgt ih =>
    exact round _ _ _ _ x [] _ hlt hc (host.length_le_of_bulkIn hx) (.inr (Nat.pos_of_ne_zero hdata))
      (.inl ⟨rfl, rfl⟩) ih
  | case8 offset targetLen frame s hlt => exact stop offset targetLen frame

/-- **The loop stays in the buffer**, whatever its target, when `R` is at the
front of it. -/
theorem tracedLoop_inBounds (host : Host σ) (dev : Device) {cap : ℕ} (hcap : cap < 2 ^ 64) (buf : Bytes)
    (offset targetLen : ℕ) (frame : Bytes) (s : σ) :
    ∀ R : Bytes, R.length = offset → frame = R ++ buf.drop R.length → R.length ≤ cap →
      InBounds cap R (tracedLoop host dev cap offset targetLen frame s).acts := by
  apply tracedLoop_rounds (P := fun offset _ frame acts =>
    ∀ R : Bytes, R.length = offset → frame = R ++ buf.drop R.length → R.length ≤ cap → InBounds cap R acts)
  · intro offset targetLen frame R hR hframe hle
    trivial
  · intro offset targetLen targetLen' frame x decodes acts hlt hc hgot hlast hdecodes ih R hR hframe hle
    subst hR
    obtain ⟨h1, h64, hroom⟩ := request_bounds hcap hle hc
    obtain ⟨hstored, hle'⟩ := round_stores hframe hle hcap hc hgot
    have hlen : (R ++ x.data).length = R.length + x.data.length := List.length_append
    have hrest : InBounds cap (R ++ x.data) acts := ih (R ++ x.data) hlen hstored hle'
    refine ⟨rfl, h1, h64, hroom, ?_⟩
    rcases hdecodes with ⟨rfl, -⟩ | ⟨rfl, -, h24, -⟩
    · exact hrest
    · exact ⟨hlen ▸ h24, hlen.symm, hstored ▸ List.take_left' hlen, hrest⟩

/-- **The number of transfers.** With a target within the limit there is one
transfer at most for each byte missing from it. -/
theorem tracedLoop_transfers (host : Host σ) (dev : Device) (cap offset targetLen : ℕ) (frame : Bytes) (s : σ) :
    targetLen ≤ 512 → (eventsOf (tracedLoop host dev cap offset targetLen frame s).acts).length ≤ 512 - offset := by
  apply tracedLoop_rounds (P := fun offset targetLen _ acts =>
    targetLen ≤ 512 → (eventsOf acts).length ≤ 512 - offset)
  · intro offset targetLen frame htarget
    exact Nat.zero_le _
  · intro offset targetLen targetLen' frame x decodes acts hlt hc hgot hlast hdecodes ih htarget
    have hevents : (eventsOf (decodes ++ acts)).length = (eventsOf acts).length := by
      rcases hdecodes with ⟨rfl, -⟩ | ⟨rfl, -⟩ <;> rfl
    have htarget' : targetLen' ≤ 512 := by
      rcases hdecodes with ⟨-, rfl⟩ | ⟨-, -, -, hle⟩
      · exact htarget
      · exact hle
    have hrest := ih htarget'
    show (eventsOf (decodes ++ acts)).length + 1 ≤ 512 - offset
    rw [hevents]
    rcases hlast with rfl | hpos
    · show 1 ≤ 512 - offset
      omega
    · omega

/-- **The number of decodes.** There is none once a header is there, and one
at most before. -/
theorem tracedLoop_decodes (host : Host σ) (dev : Device) (cap offset targetLen : ℕ) (frame : Bytes) (s : σ) :
    decodeCount (tracedLoop host dev cap offset targetLen frame s).acts ≤ if offset < 24 then 1 else 0 := by
  apply tracedLoop_rounds (P := fun offset _ _ acts => decodeCount acts ≤ if offset < 24 then 1 else 0)
  · intro offset targetLen frame
    exact Nat.zero_le _
  · intro offset targetLen targetLen' frame x decodes acts hlt hc hgot hlast hdecodes ih
    rcases hdecodes with ⟨rfl, -⟩ | ⟨rfl, rfl, h24, -⟩
    · show decodeCount acts ≤ _
      refine ih.trans ?_
      split_ifs <;> omega
    · rw [if_neg (Nat.not_lt.mpr h24)] at ih
      rw [if_pos (show offset < 24 from hlt)]
      exact Nat.succ_le_succ ih

/-! ### A read -/

/-- **The read loop is bounded.** For any capacity and whatever the transfers
bring, a read makes 512 transfers at most, each for a packet at most and
within the buffer, and decodes a header once at most, out of bytes it has
received. It is a total function, so it returns. -/
theorem read_bounded (host : Host σ) (dev : Device) (cap : ℕ) (hcap : cap < 2 ^ 64) (buf : Bytes)
    (frameLen : ℕ) (s : σ) :
    let r := tracedRead host dev buf cap frameLen s
    r.read = readFrame host dev buf cap frameLen s ∧ Makes host dev.timeoutMs s (eventsOf r.acts) r.read.state ∧
      InBounds cap [] r.acts ∧ (eventsOf r.acts).length ≤ 512 ∧ decodeCount r.acts ≤ 1 := by
  intro r
  by_cases hsmall : cap < HEADER_LEN
  · have hr : r = ⟨[], .errOverflow, buf, frameLen, s⟩ := if_pos hsmall
    rw [hr]
    exact ⟨(if_pos hsmall).symm, rfl, trivial, Nat.zero_le _, Nat.zero_le _⟩
  · have hr : r = tracedLoop host dev cap 0 HEADER_LEN buf s := if_neg hsmall
    have hread : r.read = readFrame host dev buf cap frameLen s := by
      rw [hr, tracedLoop_read]
      exact (if_neg hsmall).symm
    refine ⟨hread, hr ▸ tracedLoop_makes host dev cap 0 HEADER_LEN buf s, ?_, ?_, ?_⟩
    · exact hr ▸ tracedLoop_inBounds host dev hcap buf 0 HEADER_LEN buf s [] rfl rfl (Nat.zero_le _)
    · exact hr ▸ tracedLoop_transfers host dev cap 0 HEADER_LEN buf s (by unfold HEADER_LEN; omega)
    · exact hr ▸ tracedLoop_decodes host dev cap 0 HEADER_LEN buf s

theorem read_bounded_split :
    let host := Pipe.host Stack.zero silent
    let s : Pipe Unit := ⟨[.packet (List.replicate 5 0), .packet (List.replicate 20 0)], ()⟩
    let r := tracedRead host freshDevice (List.replicate 512 0) 512 0 s
    r.read = readFrame host freshDevice (List.replicate 512 0) 512 0 s ∧
      Makes host freshDevice.timeoutMs s (eventsOf r.acts) r.read.state ∧
      InBounds 512 [] r.acts ∧ (eventsOf r.acts).length ≤ 512 ∧ decodeCount r.acts ≤ 1 :=
  read_bounded _ _ 512 (by decide) _ 0 _

example : (tracedRead (Pipe.host Stack.zero silent) freshDevice (List.replicate 40 0) 40 0
    ⟨[.packet (List.replicate 5 0), .packet (List.replicate 20 0)], ()⟩).acts =
    [.transfer 0 40 ⟨.success, List.replicate 5 0⟩, .transfer 5 35 ⟨.success, List.replicate 20 0⟩,
      .decode (List.replicate 40 0) 25] := by decide +kernel

end UsbMux
