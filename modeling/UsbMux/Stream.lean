/-
# Frames out of a stream of packets

The reader against a host that delivers packets. A frame may be cut anywhere
as long as no packet spans two frames; the loop takes one packet a round
(`resume_packet`), decodes the header in the round in which its 24 bytes are
complete (`rounds_packets`), and leaves in the round in which the frame is
(`readFrame_of_delivers`). Calls in a row read frames in a row.

Key definitions: `Frame`, `CutFrame`, `reads`.
Key theorems: `rounds_packets`, `readFrame_of_room`, `readFrame_of_delivers`,
`stream_reassembly`.
-/
import UsbMux.Rounds

namespace UsbMux

open Buffer

variable {σ : Type}

/-! ### Frames -/

/-- A valid frame: the decoder accepts its header, which announces its
length. -/
structure Frame where
  bytes : Bytes
  header : Header
  decodes : decodeHeader bytes bytes.length = .ok header
  length_eq : bytes.length = header.totalLen.toNat

theorem Frame.le_length (f : Frame) : 24 ≤ f.bytes.length := le_of_decodeHeader_eq_ok f.decodes

theorem Frame.sealed (f : Frame) : f.header.Sealed := ((decodeHeader_eq_ok f.le_length).mp f.decodes).2.2

theorem Frame.length_le (f : Frame) : f.bytes.length ≤ 512 := f.length_eq ▸ f.sealed.totalLen_le

theorem Frame.length_payload (f : Frame) : f.bytes.length = 24 + f.header.payloadLen.toNat := by
  rw [f.length_eq]
  exact f.sealed.totalLen_of_le (f.length_eq ▸ f.le_length)

/-- The frame built around a payload. -/
def Frame.build (h : Header) (payload : Bytes) (hp : payload.length ≤ 488) : Frame where
  bytes := frameBytes (h.forPayload payload) payload
  header := h.forPayload payload
  decodes := decodeHeader_image (forLen_sealed hp) payload (by simp)
  length_eq := by
    have hlen := forLen_payloadLen (h := h) hp
    have htotal := (forLen_sealed (h := h) hp).totalLen_eq (by omega)
    rw [length_frameBytes, Header.forPayload, htotal, hlen]

theorem nil_fits : ([] : Bytes).length ≤ 488 := Nat.zero_le _

/-- A short payload makes a frame of one packet. -/
theorem Frame.build_le {h : Header} {payload : Bytes} {hp : payload.length ≤ 488} (hle : payload.length ≤ 40) :
    (Frame.build h payload hp).bytes.length ≤ 64 := by
  rw [show (Frame.build h payload hp).bytes.length = _ from length_frameBytes (h.forPayload payload) payload]
  omega

/-- A packet of EP2 IN that carries something. -/
def IsPacket (p : Bytes) : Prop := p ≠ [] ∧ p.length ≤ EP_PACKET_SIZE

instance (p : Bytes) : Decidable (IsPacket p) := inferInstanceAs (Decidable (_ ∧ _))

theorem IsPacket.pos {p : Bytes} (hp : IsPacket p) : 0 < p.length := List.length_pos_iff.mpr hp.1

/-- A valid frame and a way to send it. -/
structure CutFrame extends Frame where
  packets : List Bytes
  join : packets.flatten = bytes
  isPacket : ∀ p ∈ packets, IsPacket p

/-- The IN transfers that bring the frame. -/
def CutFrame.events (f : CutFrame) : List InEvent := f.packets.map .packet

/-- A frame of one packet. -/
def Frame.whole (f : Frame) (h : f.bytes.length ≤ 64) : CutFrame where
  toFrame := f
  packets := [f.bytes]
  join := by simp
  isPacket := by
    have := f.le_length
    simp only [List.mem_singleton, forall_eq]
    exact ⟨List.length_pos_iff.mp (by omega), h⟩

/-! ### The loop, packet by packet -/

variable {host : Host σ} {dev : Device}

theorem capacity_eq {cap offset : ℕ} (hcap : cap < 2 ^ 31) (ho : offset ≤ cap) :
    asInt (sizeSub cap offset) = ((cap - offset : ℕ) : ℤ) := by
  rw [sizeSub_of_le (by omega) ho, asInt_of_lt (by omega)]

/-- The request of a round that has room for `n` bytes more, `n` a packet's
length. -/
theorem request_ge {cap offset n : ℕ} (hcap : cap < 2 ^ 64) (hn : n ≤ 64) (hfit : offset + n ≤ room cap) :
    n ≤ (clampToPacket (asInt (sizeSub cap offset))).toNat := by
  rw [toNat_clampToPacket, toNat_asInt_sizeSub hcap (by omega)]
  omega

/-- **A round of the loop.** A packet goes behind what is there; if that
completes the header, the header is decoded. -/
theorem resume_packet (dev : Device) {cap : ℕ} (hcap : cap < 2 ^ 31) (buf : Bytes) {R p : Bytes} {targetLen : ℕ}
    {s s₁ : σ}
    (hlt : R.length < targetLen) (hp : IsPacket p) (hfit : R.length + p.length ≤ cap)
    (hx : ∀ n, p.length ≤ n → host.bulkIn dev.timeoutMs n s = (⟨.success, p⟩, s₁)) :
    resume host dev cap buf R targetLen s =
      if targetLen = 24 ∧ 24 ≤ (R ++ p).length then
        match decodeHeader (R ++ p) (R ++ p).length with
        | .error ret => ⟨ret, (R ++ p) ++ buf.drop (R ++ p).length, 0, s₁⟩
        | .ok h =>
          if h.totalLen.toNat > cap then ⟨.errOverflow, (R ++ p) ++ buf.drop (R ++ p).length, 0, s₁⟩
          else resume host dev cap buf (R ++ p) h.totalLen.toNat s₁
      else resume host dev cap buf (R ++ p) targetLen s₁ := by
  have hpos := hp.pos
  have hcapacity := capacity_eq hcap (show R.length ≤ cap by omega)
  have hreq := request_ge (show cap < 2 ^ 64 by omega) hp.2 (by rwa [room_of_lt hcap])
  rw [resume_round buf hlt (by omega) (hx _ hreq)]
  dsimp only
  rw [if_neg (by simp)]
  exact if_neg (by omega)

theorem resume_timeout {cap : ℕ} (hcap : cap < 2 ^ 31) (buf : Bytes) {R : Bytes} {targetLen : ℕ} {s s₁ : σ}
    (hlt : R.length < targetLen) (hfit : R.length < cap)
    (hx : ∀ n, host.bulkIn dev.timeoutMs n s = (⟨.timeout, []⟩, s₁)) :
    resume host dev cap buf R targetLen s = ⟨.errTimeout, R ++ buf.drop R.length, 0, s₁⟩ := by
  have hcapacity := capacity_eq hcap hfit.le
  rw [resume_round buf hlt (by omega) (hx _)]
  simp [mapLibusbError]

/-! ### A frame -/

/-- What the loop wants with `n` bytes of a frame of `len` bytes received. -/
def target (len n : ℕ) : ℕ := if n < 24 then 24 else len

/-- The front of a frame, when a header is there, decodes to the frame's. -/
theorem Frame.decodes_front {f : Frame} {R : Bytes} (hpre : R <+: f.bytes) (h24 : 24 ≤ R.length) :
    decodeHeader R R.length = .ok f.header := by
  rw [← f.decodes]
  exact decodeHeader_front hpre h24 h24 f.le_length

/-- What a round takes of a frame that fits leaves the loop wanting the frame. -/
theorem Frame.nextTarget {f : Frame} {cap : ℕ} (hf : f.bytes.length ≤ cap) {R p : Bytes}
    (hpre : (R ++ p) <+: f.bytes) :
    NextTarget cap (target f.bytes.length R.length) (R ++ p) (target f.bytes.length (R ++ p).length) := by
  have h24 := f.le_length
  have hlen : (R ++ p).length = R.length + p.length := List.length_append
  unfold NextTarget
  by_cases h : R.length < 24
  · rw [show target f.bytes.length R.length = 24 from if_pos h]
    by_cases hge : 24 ≤ (R ++ p).length
    · -- the header is complete: it is the frame's
      rw [if_pos ⟨rfl, hge⟩]
      refine ⟨f.header, Frame.decodes_front hpre hge, f.length_eq ▸ hf, ?_⟩
      rw [show target f.bytes.length (R ++ p).length = f.bytes.length from if_neg (by omega), f.length_eq]
    · rw [if_neg (by omega), show target f.bytes.length (R ++ p).length = 24 from if_pos (by omega)]
  · -- the header was decoded in an earlier round
    rw [show target f.bytes.length R.length = f.bytes.length from if_neg h,
      show target f.bytes.length (R ++ p).length = f.bytes.length from if_neg (by omega)]
    split_ifs with hdec
    · have hge : 24 ≤ (R ++ p).length := by omega
      exact ⟨f.header, Frame.decodes_front hpre hge, f.length_eq ▸ hf, f.length_eq⟩
    · rfl

/-- **Packets of a frame** take the loop along the frame, as far as there is
room: the header is decoded once, when it is complete. -/
theorem rounds_packets {cap : ℕ} (hcap : cap < 2 ^ 64) {f : Frame} (hf : f.bytes.length ≤ cap) :
    ∀ {ps : List Bytes} {R : Bytes} {s s' : σ}, (R ++ ps.flatten) <+: f.bytes →
      (R ++ ps.flatten).length ≤ room cap → (∀ p ∈ ps, IsPacket p) →
      Delivers host dev.timeoutMs s (ps.map .packet) s' →
      Relation.ReflTransGen (Round host dev cap) ⟨R, target f.bytes.length R.length, s⟩
        ⟨R ++ ps.flatten, target f.bytes.length (R ++ ps.flatten).length, s'⟩
  | [], R, s, s', _, _, _, hd => by
    rw [show s = s' from hd, List.flatten_nil, List.append_nil]
  | p :: ps, R, s, s', hpre, hroom, hps, ⟨s₁, hx, hd⟩ => by
    have hp := hps p (by simp)
    have hpos := hp.pos
    rw [List.flatten_cons, ← List.append_assoc] at hpre hroom ⊢
    have hfront : (R ++ p) <+: f.bytes := (List.prefix_append (R ++ p) ps.flatten).trans hpre
    have hle := hfront.length_le
    have hlen : (R ++ p).length = R.length + p.length := List.length_append
    have hfit : R.length + p.length ≤ room cap := by
      rw [List.length_append] at hroom
      omega
    have hrest := toNat_asInt_sizeSub hcap (show R.length ≤ room cap by omega)
    have hnarrows : 0 < asInt (sizeSub cap R.length) := by omega
    have hlt : R.length < target f.bytes.length R.length := by
      unfold target
      split <;> omega
    have hround : Round host dev cap ⟨R, target f.bytes.length R.length, s⟩
        ⟨R ++ p, target f.bytes.length (R ++ p).length, s₁⟩ :=
      ⟨hlt, hnarrows, ⟨p, hp.1, rfl, hx _ (request_ge hcap hp.2 hfit)⟩, Frame.nextTarget hf hfront⟩
    exact .head hround (rounds_packets hcap hf hpre hroom (fun q hq => hps q (by simp [hq])) hd)

/-- So the loop goes on behind them. -/
theorem resume_packets {cap : ℕ} (hcap : cap < 2 ^ 31) (buf : Bytes) {f : Frame} (hf : f.bytes.length ≤ cap)
    {ps : List Bytes} {R : Bytes} {s s' : σ} (hpre : (R ++ ps.flatten) <+: f.bytes) (hps : ∀ p ∈ ps, IsPacket p)
    (hd : Delivers host dev.timeoutMs s (ps.map .packet) s') :
    resume host dev cap buf R (target f.bytes.length R.length) s =
      resume host dev cap buf (R ++ ps.flatten) (target f.bytes.length (R ++ ps.flatten).length) s' := by
  have hroom : (R ++ ps.flatten).length ≤ room cap := by
    rw [room_of_lt hcap]
    exact hpre.length_le.trans hf
  exact rounds_resume buf (rounds_packets (by omega) hf hpre hroom hps hd)

/-- **A frame that is delivered is read** if it fits the room, and nothing
else is. -/
theorem readFrame_of_room {cap : ℕ} (hcap : cap < 2 ^ 64) (buf : Bytes) (frameLen : ℕ) (f : CutFrame)
    (hf : f.bytes.length ≤ room cap) {s s' : σ} (hd : Delivers host dev.timeoutMs s f.events s') :
    readFrame host dev buf cap frameLen s =
      ⟨.ok, f.bytes ++ buf.drop f.bytes.length, f.bytes.length, s'⟩ := by
  have h24 := f.le_length
  have hle := hf.trans (room_le cap)
  have hbytes : [] ++ f.packets.flatten = f.bytes := f.join
  have hrounds := rounds_packets (R := []) hcap hle (hbytes ▸ List.prefix_rfl) (hbytes ▸ hf) f.isPacket hd
  rw [hbytes, show target f.bytes.length f.bytes.length = f.bytes.length from if_neg (by omega)] at hrounds
  rw [readFrame_of_rounds (by omega) buf frameLen hrounds]
  exact resume_done le_rfl

theorem readFrame_of_delivers {cap : ℕ} (hcap : cap < 2 ^ 31) (buf : Bytes) (frameLen : ℕ) (f : CutFrame)
    (hf : f.bytes.length ≤ cap) {s s' : σ} (hd : Delivers host dev.timeoutMs s f.events s') :
    readFrame host dev buf cap frameLen s =
      ⟨.ok, f.bytes ++ buf.drop f.bytes.length, f.bytes.length, s'⟩ :=
  readFrame_of_room (by omega) buf frameLen f (by rwa [room_of_lt hcap]) hd

/-- A timeout inside a frame ends the call: the packets before it are gone. -/
theorem readFrame_of_timeout {cap : ℕ} (hcap : cap < 2 ^ 31) (buf : Bytes) (frameLen : ℕ) (f : Frame)
    (hf : f.bytes.length ≤ cap) {ps : List Bytes} (hps : ∀ p ∈ ps, IsPacket p) (hpre : ps.flatten <+: f.bytes)
    (hlt : ps.flatten.length < f.bytes.length) {s s' : σ}
    (hd : Delivers host dev.timeoutMs s (ps.map .packet ++ [.timeout]) s') :
    readFrame host dev buf cap frameLen s =
      ⟨.errTimeout, ps.flatten ++ buf.drop ps.flatten.length, 0, s'⟩ := by
  have h24 := f.le_length
  obtain ⟨s₁, hds, s₂, hx, rfl⟩ := delivers_append.mp hd
  have hgo := resume_packets hcap buf hf (R := []) (by rwa [List.nil_append]) hps hds
  rw [List.nil_append] at hgo
  rw [readFrame_eq_resume host dev (by omega)]
  refine (show _ = _ from hgo).trans (resume_timeout hcap buf ?_ (by omega) hx)
  unfold target
  split <;> omega

/-- A timeout before anything has come in. -/
theorem readFrame_timeout {host : Host σ} {dev : Device} (buf : Bytes) {s s₁ : σ}
    (hx : ∀ n, host.bulkIn dev.timeoutMs n s = (⟨.timeout, []⟩, s₁)) :
    readFrame host dev buf 512 0 s = ⟨.errTimeout, buf, 0, s₁⟩ := by
  rw [readFrame_eq_resume host dev (by decide)]
  exact resume_timeout (by decide) buf (by decide) (by decide) hx

/-! ### Calls in a row -/

/-- Calls with a 512-byte buffer each, one after the other: the state before
each and what it leaves. -/
def reads (host : Host σ) (dev : Device) : List Bytes → σ → List (σ × FrameRead σ)
  | [], _ => []
  | buf :: bufs, s =>
    let r := readFrame host dev buf MAX_FRAME_LEN 0 s
    (s, r) :: reads host dev bufs r.state

/-- The call read `f`: OK, its bytes, its length, and it took the packets of
`f` and no other. -/
def ReadsFrame (host : Host σ) (dev : Device) (f : CutFrame) (c : σ × FrameRead σ) : Prop :=
  c.2.ret = .ok ∧ c.2.frame.take c.2.frameLen = f.bytes ∧ c.2.frameLen = f.header.totalLen.toNat ∧
    Delivers host dev.timeoutMs c.1 f.events c.2.state

/-- **Stream reassembly.** However the frames are cut, as many calls read
them, each its own. -/
theorem stream_reassembly (host : Host σ) (dev : Device) (frames : List CutFrame) (bufs : List Bytes) (s s' : σ)
    (hlen : bufs.length = frames.length)
    (hd : Delivers host dev.timeoutMs s (frames.flatMap CutFrame.events) s') :
    List.Forall₂ (ReadsFrame host dev) frames (reads host dev bufs s) := by
  induction frames generalizing bufs s with
  | nil =>
    obtain rfl := List.length_eq_zero_iff.mp hlen
    exact .nil
  | cons f fs ih =>
    obtain ⟨buf, bufs, rfl⟩ := List.exists_cons_of_length_eq_add_one hlen
    obtain ⟨s₁, hf, hd⟩ := delivers_append.mp hd
    have hr := readFrame_of_delivers maxFrameLen_lt_int buf 0 f f.length_le hf
    refine .cons ⟨?_, ?_, ?_, ?_⟩ ?_
    · exact congrArg FrameRead.ret hr
    · rw [show readFrame host dev buf MAX_FRAME_LEN 0 s = _ from hr]
      exact List.take_left' rfl
    · rw [show readFrame host dev buf MAX_FRAME_LEN 0 s = _ from hr]
      exact f.length_eq
    · rw [show readFrame host dev buf MAX_FRAME_LEN 0 s = _ from hr]
      exact hf
    · rw [show readFrame host dev buf MAX_FRAME_LEN 0 s = _ from hr]
      exact ih bufs s₁ (by simpa using hlen) hd

/-- A frame of 25 bytes, cut inside its header. -/
def splitFrame : CutFrame where
  toFrame := Frame.build Header.zero [0x11] (by decide)
  packets := [(Frame.build Header.zero [0x11] (by decide)).bytes.take 5,
    (Frame.build Header.zero [0x11] (by decide)).bytes.drop 5]
  join := by simp
  isPacket := by decide +kernel

theorem stream_reassembly_split :
    List.Forall₂ (ReadsFrame (Pipe.host Stack.zero silent) freshDevice) [splitFrame, splitFrame]
      (reads (Pipe.host Stack.zero silent) freshDevice [List.replicate 512 0, List.replicate 512 0]
        ⟨[splitFrame, splitFrame].flatMap CutFrame.events, ()⟩) :=
  stream_reassembly _ _ _ _ _ ⟨[], ()⟩ rfl (Pipe.delivers_all _ _ _ _ _)

end UsbMux
