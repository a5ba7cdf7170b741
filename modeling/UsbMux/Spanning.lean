/-
# Packets that span frames

The reader keeps nothing from one call to the next. If the packet that
completes a frame goes on behind it, the call returns the frame and the rest
of the packet is gone; the next call starts with the next packet. So the
frames of a stream are all read exactly when each ends with a packet
(`Aligned`), and as long as they do, they are read in order.

Key definitions: `stream`, `Aligned`.
Key theorems: `readFrame_of_split`, `no_frame_skipped`.
-/
import UsbMux.Timeouts

namespace UsbMux

variable {stack : Stack} {dev : Device} {buf : Bytes} {bufs : List Bytes}

/-! ### The packet that completes a frame -/

/-- The bytes of the frames, one after the other. -/
def stream (frames : List Frame) : Bytes := (frames.map Frame.bytes).flatten

theorem stream_cons (f : Frame) (fs : List Frame) : stream (f :: fs) = f.bytes ++ stream fs := rfl

/-- Among the packets there is one with which `n` bytes are there. -/
theorem exists_split {n : ℕ} (hn : 0 < n) : ∀ {ps : List Bytes}, n ≤ ps.flatten.length →
    ∃ ps₁ p ps₂, ps = ps₁ ++ p :: ps₂ ∧ ps₁.flatten.length < n ∧ n ≤ (ps₁.flatten ++ p).length
  | [], h => absurd hn (Nat.not_lt.mpr h)
  | p :: ps, h => by
    rw [List.flatten_cons, List.length_append] at h
    by_cases hp : n ≤ p.length
    · exact ⟨[], p, ps, rfl, hn, hp⟩
    · obtain ⟨ps₁, q, ps₂, rfl, hlt, hle⟩ := exists_split (n := n - p.length) (by omega)
        (show _ ≤ ps.flatten.length by omega)
      refine ⟨p :: ps₁, q, ps₂, rfl, ?_, ?_⟩
      · rw [List.flatten_cons, List.length_append]
        omega
      · rw [List.flatten_cons, List.append_assoc, List.length_append]
        omega

/-- The round that completes the frame: the call returns the frame, whatever
the packet holds behind it. -/
theorem resume_completes {σ : Type} {host : Host σ} (f : Frame) {R p : Bytes} (hp : IsPacket p)
    (hlt : R.length < f.bytes.length) (hpre : f.bytes <+: R ++ p) (hfit : R.length + p.length ≤ 512) {s s₁ : σ}
    (hx : ∀ n, p.length ≤ n → host.bulkIn dev.timeoutMs n s = (⟨.success, p⟩, s₁)) :
    resume host dev 512 buf R (target f.bytes.length R.length) s =
      ⟨.ok, (R ++ p) ++ buf.drop (R ++ p).length, f.bytes.length, s₁⟩ := by
  have h24 := f.le_length
  have h512 := f.length_le
  have hlen := hpre.length_le
  have htarget : R.length < target f.bytes.length R.length := by
    unfold target
    split <;> omega
  rw [resume_packet dev maxFrameLen_lt_int buf htarget hp hfit hx]
  by_cases h : R.length < 24
  · -- the header is in this packet, and the frame with it
    have hdec : decodeHeader (R ++ p) (R ++ p).length = .ok f.header := by
      rw [← f.decodes]
      exact (decodeHeader_front hpre h24 h24 (by omega)).symm
    rw [show target f.bytes.length R.length = 24 from if_pos h, if_pos ⟨rfl, by omega⟩, hdec]
    dsimp only
    rw [← f.length_eq, if_neg (by omega), resume_done hlen]
  · rw [show target f.bytes.length R.length = f.bytes.length from if_neg h, if_neg (by omega), resume_done hlen]

/-- A packet that finds no room for it in the buffer ends the call. -/
theorem resume_overflows {R p : Bytes} {targetLen : ℕ} (hlt : R.length < targetLen) (hroom : R.length < 512)
    (hp : p.length ≤ 64) (hfit : 512 < R.length + p.length) (rest : List InEvent) :
    resume (Pipe.host stack silent) dev 512 buf R targetLen ⟨.packet p :: rest, ()⟩ =
      ⟨.errIo, R ++ buf.drop R.length, 0, ⟨rest, ()⟩⟩ := by
  have hcapacity := capacity_eq maxFrameLen_lt_int hroom.le
  have hreq : ¬p.length ≤ (clampToPacket (asInt (sizeSub 512 R.length))).toNat := by
    rw [hcapacity]
    unfold clampToPacket
    simp only [EP_PACKET_SIZE]
    split <;> omega
  have hx : (Pipe.host stack silent).bulkIn dev.timeoutMs (clampToPacket (asInt (sizeSub 512 R.length))).toNat
      ⟨.packet p :: rest, ()⟩ = (⟨.overflow, []⟩, ⟨rest, ()⟩) := if_neg hreq
  rw [resume, readLoop_round hlt (by omega) hx]
  simp [mapLibusbError]

/-- **A call on a stream** that starts with the frame `f`: it takes the
packets up to the one that completes `f`. If that one fits the buffer the
call returns `f`, and in either case the packet is gone. -/
theorem readFrame_of_split (stack : Stack) (dev : Device) (buf : Bytes) (f : Frame) {ps₁ ps₂ : List Bytes} {p : Bytes}
    {more : Bytes} (hps : ∀ x ∈ ps₁ ++ p :: ps₂, IsPacket x) (hjoin : (ps₁ ++ p :: ps₂).flatten = f.bytes ++ more)
    (hlt : ps₁.flatten.length < f.bytes.length) (hle : f.bytes.length ≤ (ps₁.flatten ++ p).length) :
    let r := readFrame (Pipe.host stack silent) dev buf 512 0 ⟨(ps₁ ++ p :: ps₂).map .packet, ()⟩
    r.state = ⟨ps₂.map .packet, ()⟩ ∧ (r.ret = .ok ∧ r.frame.take r.frameLen = f.bytes ∨ r.ret = .errIo) := by
  intro r
  have h512 := f.length_le
  have hp : IsPacket p := hps p (by simp)
  rw [List.flatten_append, List.flatten_cons, ← List.append_assoc] at hjoin
  have hpre : f.bytes <+: ps₁.flatten ++ p :=
    List.prefix_of_prefix_length_le ⟨more, hjoin.symm⟩ (List.prefix_append ..) hle
  have hpre₁ : ps₁.flatten <+: f.bytes :=
    List.prefix_of_prefix_length_le (List.prefix_append ..) hpre hlt.le
  have hgo := resume_packets maxFrameLen_lt_int buf h512 (R := []) (by rwa [List.nil_append])
    (fun x hx => hps x (List.mem_append_left _ hx))
    (Pipe.delivers stack silent dev.timeoutMs () ((p :: ps₂).map .packet) (ps₁.map .packet))
  rw [List.nil_append, ← List.map_append] at hgo
  have hr : r = resume (Pipe.host stack silent) dev 512 buf ps₁.flatten (target f.bytes.length ps₁.flatten.length)
      ⟨.packet p :: ps₂.map .packet, ()⟩ := (readFrame_eq_resume _ _ (by decide) buf 0 _).trans hgo
  by_cases hfit : ps₁.flatten.length + p.length ≤ 512
  · rw [resume_completes f hp hlt hpre hfit fun n hn => Pipe.bulkIn_packet stack silent hn (ps₂.map .packet) ()] at hr
    rw [hr]
    refine ⟨rfl, .inl ⟨rfl, ?_⟩⟩
    obtain ⟨rest, hrest⟩ := hpre
    rw [← hrest, List.append_assoc]
    exact List.take_left' rfl
  · have htarget : ps₁.flatten.length < target f.bytes.length ps₁.flatten.length := by
      unfold target
      split <;> omega
    rw [resume_overflows htarget (by omega) hp.2 (by omega)] at hr
    rw [hr]
    exact ⟨rfl, .inr rfl⟩

/-! ### Frames that end with packets -/

/-- Each of the frames ends with a packet: some packets at the front make up
the first one, and so on behind them. -/
def Aligned : List Frame → List Bytes → Prop
  | [], _ => True
  | f :: fs, ps => ∃ k, (ps.take k).flatten = f.bytes ∧ Aligned fs (ps.drop k)

/-- A frame that ends with a packet is read, with its packets and no other. -/
theorem readFrame_aligned (stack : Stack) (dev : Device) (buf : Bytes) (f : Frame) {ps : List Bytes}
    (hps : ∀ x ∈ ps, IsPacket x) {k : ℕ} (hk : (ps.take k).flatten = f.bytes) :
    readFrame (Pipe.host stack silent) dev buf 512 0 ⟨ps.map .packet, ()⟩ =
      ⟨.ok, f.bytes ++ buf.drop f.bytes.length, f.bytes.length, ⟨(ps.drop k).map .packet, ()⟩⟩ := by
  let cut : CutFrame := ⟨f, ps.take k, hk, fun x hx => hps x (List.mem_of_mem_take hx)⟩
  have hd := Pipe.delivers stack silent dev.timeoutMs () ((ps.drop k).map .packet) cut.events
  have hq : cut.events ++ (ps.drop k).map .packet = ps.map .packet := by
    rw [CutFrame.events, ← List.map_append, List.take_append_drop]
  rw [hq] at hd
  exact readFrame_of_delivers maxFrameLen_lt_int buf 0 cut f.length_le hd

theorem packets_eq_nil {ps : List Bytes} (hps : ∀ x ∈ ps, IsPacket x) (h : ps.flatten = []) : ps = [] := by
  by_contra hne
  have hpos := flatten_pos hne hps
  rw [h] at hpos
  exact Nat.lt_irrefl 0 hpos

theorem readFrame_nil (stack : Stack) (dev : Device) (buf : Bytes) :
    readFrame (Pipe.host stack silent) dev buf MAX_FRAME_LEN 0 ⟨[], ()⟩ = ⟨.errTimeout, buf, 0, ⟨[], ()⟩⟩ :=
  readFrame_timeout buf fun _ => rfl

/-- On an empty queue no call returns OK. -/
theorem framesOf_reads_nil (stack : Stack) (dev : Device) : ∀ bufs : List Bytes,
    framesOf (reads (Pipe.host stack silent) dev bufs ⟨[], ()⟩) = []
  | [] => rfl
  | buf :: bufs => by
    rw [reads, readFrame_nil, framesOf, if_neg (by simp)]
    exact framesOf_reads_nil stack dev bufs

/-- What is left behind the first frame. -/
theorem flatten_drop {f : Frame} {fs : List Frame} {ps : List Bytes} {k : ℕ} (hjoin : ps.flatten = stream (f :: fs))
    (hk : (ps.take k).flatten = f.bytes) : (ps.drop k).flatten = stream fs := by
  rw [stream_cons, ← List.take_append_drop k ps, List.flatten_append, hk] at hjoin
  exact List.append_cancel_left hjoin

/-- A stream's first frame, split off: the packet that completes it. -/
theorem split_first {f : Frame} {fs : List Frame} {ps : List Bytes} (hjoin : ps.flatten = stream (f :: fs)) :
    ∃ ps₁ p ps₂, ps = ps₁ ++ p :: ps₂ ∧ ps₁.flatten.length < f.bytes.length ∧
      f.bytes.length ≤ (ps₁.flatten ++ p).length := by
  have h24 := f.le_length
  apply exists_split (by omega)
  rw [hjoin, stream_cons, List.length_append]
  exact Nat.le_add_right _ _

/-! ### Calls in a row -/

/-- As long as no call has returned an error, and all frames but the last one
returned end with packets, the frames returned are the first ones. -/
theorem frames_in_order (stack : Stack) (dev : Device) : ∀ (bufs : List Bytes) (frames : List Frame) (ps : List Bytes),
    (∀ p ∈ ps, IsPacket p) → ps.flatten = stream frames → Aligned (frames.take (bufs.length - 1)) ps →
    (∀ c ∈ reads (Pipe.host stack silent) dev bufs ⟨ps.map .packet, ()⟩, c.2.ret = .ok) →
    framesOf (reads (Pipe.host stack silent) dev bufs ⟨ps.map .packet, ()⟩) = (frames.take bufs.length).map Frame.bytes
  | [], frames, ps, _, _, _, _ => rfl
  | buf :: bufs, [], ps, hps, hjoin, _, hok => by
    -- no frame is left: the call times out
    obtain rfl := packets_eq_nil hps hjoin
    rw [List.map_nil, reads, readFrame_nil] at hok
    cases hok _ (List.mem_cons_self ..)
  | [buf], f :: fs, ps, hps, hjoin, _, hok => by
    obtain ⟨ps₁, p, ps₂, rfl, hlt, hle⟩ := split_first hjoin
    obtain ⟨-, ⟨hret, hframe⟩ | hret⟩ := readFrame_of_split stack dev buf f hps hjoin hlt hle
    · rw [reads, framesOf, if_pos hret]
      exact congrArg (· :: []) hframe
    · have hfirst := hok _ (List.mem_cons_self ..)
      rw [hret] at hfirst
      cases hfirst
  | buf :: buf' :: bufs, f :: fs, ps, hps, hjoin, ⟨k, hk, halign⟩, hok => by
    have hr : readFrame (Pipe.host stack silent) dev buf MAX_FRAME_LEN 0 ⟨ps.map .packet, ()⟩ = _ :=
      readFrame_aligned stack dev buf f hps hk
    rw [reads, hr] at hok ⊢
    rw [framesOf, if_pos rfl, List.take_left' rfl]
    have ih := frames_in_order stack dev (buf' :: bufs) fs (ps.drop k) (fun p hp => hps p (List.mem_of_mem_drop hp))
      (flatten_drop hjoin hk) halign (fun c hc => hok c (List.mem_cons_of_mem _ hc))
    exact congrArg (f.bytes :: ·) ih

/-- All frames are read exactly when each ends with a packet. -/
theorem frames_iff_aligned (stack : Stack) (dev : Device) :
    ∀ (frames : List Frame) (bufs : List Bytes) (ps : List Bytes),
    (∀ p ∈ ps, IsPacket p) → ps.flatten = stream frames → frames.length ≤ bufs.length →
    (framesOf (reads (Pipe.host stack silent) dev bufs ⟨ps.map .packet, ()⟩) = frames.map Frame.bytes ↔
      Aligned frames ps)
  | [], bufs, ps, hps, hjoin, _ => by
    obtain rfl := packets_eq_nil hps hjoin
    exact ⟨fun _ => trivial, fun _ => framesOf_reads_nil stack dev bufs⟩
  | f :: fs, [], ps, _, _, hlen' => absurd hlen' (Nat.not_succ_le_zero _)
  | f :: fs, buf :: bufs, ps, hps, hjoin, hlen' => by
    have ih := fun ps' => frames_iff_aligned stack dev fs bufs ps'
    constructor
    · intro hframes
      obtain ⟨ps₁, p, ps₂, rfl, hlt, hle⟩ := split_first hjoin
      obtain ⟨hstate, hret⟩ := readFrame_of_split stack dev buf f hps hjoin hlt hle
      rw [stream_cons, List.flatten_append, List.flatten_cons, ← List.append_assoc] at hjoin
      have htotal : (ps₁.flatten ++ p).length + ps₂.flatten.length = f.bytes.length + (stream fs).length := by
        rw [← List.length_append, hjoin, List.length_append]
      have hback := reads_backlog stack dev bufs ⟨ps₂.map .packet, ()⟩
      rw [backlog, packetsOf_map] at hback
      rcases hret with ⟨hok, -⟩ | herr
      · rw [reads, framesOf, if_pos hok, hstate] at hframes
        obtain ⟨-, hrest⟩ := List.cons.inj hframes
        rw [hrest] at hback
        -- the packets hold no more than the frame
        have hlen : (ps₁.flatten ++ p).length = f.bytes.length := by
          unfold stream at htotal
          omega
        obtain ⟨hfirst, hmore⟩ := List.append_inj hjoin hlen
        rw [List.append_cons]
        refine ⟨(ps₁ ++ [p]).length, ?_, ?_⟩
        · rw [List.take_left, List.flatten_append, List.flatten_singleton, hfirst]
        · rw [List.drop_left]
          exact (ih ps₂ (fun x hx => hps x (by simp [hx])) hmore (Nat.le_of_succ_le_succ hlen')).mp hrest
      · -- the packet is lost, and the frame's bytes with it
        rw [reads, framesOf, if_neg (by rw [herr]; simp), hstate] at hframes
        rw [hframes, List.map_cons, List.flatten_cons, List.length_append] at hback
        unfold stream at htotal
        omega
    · rintro ⟨k, hk, halign⟩
      have hr : readFrame (Pipe.host stack silent) dev buf MAX_FRAME_LEN 0 ⟨ps.map .packet, ()⟩ = _ :=
        readFrame_aligned stack dev buf f hps hk
      rw [reads, hr, framesOf, if_pos rfl, List.take_left' rfl]
      have hrest := (ih (ps.drop k) (fun p hp => hps p (List.mem_of_mem_drop hp)) (flatten_drop hjoin hk)
        (Nat.le_of_succ_le_succ hlen')).mpr halign
      exact congrArg (f.bytes :: ·) hrest

/-- **No frame is skipped while frames end with packets.** As long as no call
has returned an error and every frame before the last one returned ends with
a packet, the frames returned are the first ones, in order. Enough calls
return all the frames of the stream exactly when each of them ends with a
packet. -/
theorem no_frame_skipped (stack : Stack) (dev : Device) (bufs : List Bytes) (frames : List Frame) (ps : List Bytes)
    (hps : ∀ p ∈ ps, IsPacket p) (hjoin : ps.flatten = stream frames) :
    let calls := reads (Pipe.host stack silent) dev bufs ⟨ps.map .packet, ()⟩
    (Aligned (frames.take (bufs.length - 1)) ps → (∀ c ∈ calls, c.2.ret = .ok) →
      framesOf calls = (frames.take bufs.length).map Frame.bytes) ∧
    (frames.length ≤ bufs.length → (framesOf calls = frames.map Frame.bytes ↔ Aligned frames ps)) :=
  ⟨frames_in_order stack dev bufs frames ps hps hjoin, frames_iff_aligned stack dev frames bufs ps hps hjoin⟩

/-- A frame without payload under a number. -/
def numbered (seq : UInt16) : Frame := Frame.build { Header.zero with seq := seq } [] nil_fits

/-- Three frames in three packets; the second packet ends the second frame and
begins the third. -/
def spanningPackets : List Bytes :=
  [(numbered 1).bytes, (numbered 2).bytes ++ (numbered 3).bytes.take 10, (numbered 3).bytes.drop 10]

/-- Two calls return the first two frames. Three calls do not return all
three, so the packets are not aligned. -/
theorem no_frame_skipped_spanning :
    framesOf (reads (Pipe.host Stack.zero silent) freshDevice (List.replicate 2 (List.replicate 512 0))
      ⟨spanningPackets.map .packet, ()⟩) = [(numbered 1).bytes, (numbered 2).bytes] ∧
    ¬Aligned [numbered 1, numbered 2, numbered 3] spanningPackets := by
  have hskip (calls : ℕ) := no_frame_skipped Stack.zero freshDevice (List.replicate calls (List.replicate 512 0))
    [numbered 1, numbered 2, numbered 3] spanningPackets (by decide +kernel) (by decide +kernel)
  constructor
  · exact (hskip 2).1 ⟨1, by decide +kernel, trivial⟩ (by decide +kernel)
  · exact ((hskip 3).2 (by decide)).not.mp (by decide +kernel)

/-- The second frame begins in the packet that ends the first. -/
theorem spanning_skips :
    ¬∀ (stack : Stack) (dev : Device) (bufs : List Bytes) (frames : List Frame) (ps : List Bytes),
      (∀ p ∈ ps, IsPacket p) → ps.flatten = stream frames →
      (∀ c ∈ reads (Pipe.host stack silent) dev bufs ⟨ps.map .packet, ()⟩, c.2.ret = .ok) →
      framesOf (reads (Pipe.host stack silent) dev bufs ⟨ps.map .packet, ()⟩) =
        (frames.take bufs.length).map Frame.bytes := by
  intro hall
  have h := hall Stack.zero freshDevice [List.replicate 512 0, List.replicate 512 0]
    [numbered 1, numbered 2, numbered 3] [(numbered 1).bytes ++ (numbered 2).bytes, (numbered 3).bytes]
    (by decide +kernel) (by decide +kernel) (by decide +kernel)
  exact absurd h (by decide +kernel)

end UsbMux
