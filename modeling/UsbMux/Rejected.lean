/-
# After a rejected frame

When a header is rejected the call returns with one packet taken; the rest of
the frame is still queued, and the next call starts on its next packet as if
a frame began there. With full packets of 64 bytes the reader is back in step
when the frame's last packet has been taken, provided each packet of it is
long enough to be decoded by itself and is rejected like the first
(`readFrame_rejects`). A packet that is accepted is handed over or takes
following frames with it, and a short last packet takes the next frame's
first packet with it (`readFrame_swallows`).

Key definitions: `packetize`, `Contained`.
Key theorem: `rejected_contained`.
-/
import UsbMux.Timeouts

namespace UsbMux

/-! ### Full packets and a shorter last one -/

/-- The packets of 64 bytes, the last one shorter. -/
def packetize (b : Bytes) : List Bytes :=
  if b = [] then [] else b.take 64 :: packetize (b.drop 64)
termination_by b.length
decreasing_by
  have := List.length_pos_iff.mpr ‹b ≠ []›
  rw [List.length_drop]
  omega

theorem packetize_nil : packetize [] = [] := by
  unfold packetize
  exact if_pos rfl

theorem packetize_of_ne {b : Bytes} (hb : b ≠ []) : packetize b = b.take 64 :: packetize (b.drop 64) := by
  conv_lhs => unfold packetize
  exact if_neg hb

theorem isPacket_take {b : Bytes} (hb : b ≠ []) : IsPacket (b.take 64) := by
  have := List.length_pos_iff.mpr hb
  refine ⟨List.length_pos_iff.mp ?_, List.length_take_le _ _⟩
  rw [List.length_take]
  omega

theorem flatten_packetize (b : Bytes) : (packetize b).flatten = b := by
  fun_induction packetize b with
  | case1 => rfl
  | case2 b hb ih => rw [List.flatten_cons, ih, List.take_append_drop]

theorem isPacket_packetize (b : Bytes) : ∀ p ∈ packetize b, IsPacket p := by
  fun_induction packetize b with
  | case1 => simp
  | case2 b hb ih =>
    intro p hp
    rcases List.mem_cons.mp hp with rfl | hp
    · exact isPacket_take hb
    · exact ih p hp

/-- The frame in full packets. -/
def Frame.sent (f : Frame) : CutFrame where
  toFrame := f
  packets := packetize f.bytes
  join := flatten_packetize f.bytes
  isPacket := isPacket_packetize f.bytes

/-! ### The reader in the body of the rejected frame -/

/-- The transfers that bring the frames. -/
def sentEvents (frames : List Frame) : List InEvent := (frames.map Frame.sent).flatMap CutFrame.events

variable {stack : Stack} {dev : Device}

/-- With its header decoded, the loop takes packet after packet. -/
theorem resume_body (stack : Stack) (dev : Device) (buf : Bytes) (targetLen : ℕ) (rest : List InEvent) (b : Bytes) :
    ∀ R : Bytes, 24 ≤ R.length → (R ++ b).length ≤ 512 →
    (resume (Pipe.host stack silent) dev 512 buf R targetLen ⟨(packetize b).map .packet ++ rest, ()⟩).ret = .ok ∨
      resume (Pipe.host stack silent) dev 512 buf R targetLen ⟨(packetize b).map .packet ++ rest, ()⟩ =
        resume (Pipe.host stack silent) dev 512 buf (R ++ b) targetLen ⟨rest, ()⟩ := by
  fun_induction packetize b with
  | case1 =>
    intro R _ _
    simp
  | case2 b hb ih =>
    intro R h24 h512
    by_cases hdone : targetLen ≤ R.length
    · rw [resume_done hdone]
      exact .inl rfl
    have hp := isPacket_take hb
    have hlen : (R ++ b).length = R.length + b.length := List.length_append
    have htake : (b.take 64).length = min 64 b.length := List.length_take
    have hround := resume_packet dev maxFrameLen_lt_int buf (show R.length < targetLen by omega)
      hp (by omega) fun n hn => Pipe.bulkIn_packet stack silent hn ((packetize (b.drop 64)).map .packet ++ rest) ()
    rw [if_neg (by omega)] at hround
    have happ : (R ++ b.take 64) ++ b.drop 64 = R ++ b := by rw [List.append_assoc, List.take_append_drop]
    rw [List.map_cons, List.cons_append, hround, ← happ]
    exact ih (R ++ b.take 64) (by rw [List.length_append]; omega) (by rw [happ]; exact h512)

/-- With bytes to come and room for them, the loop takes the next packet. -/
theorem resume_takes (stack : Stack) (dev : Device) (buf : Bytes) {R : Bytes} {targetLen : ℕ}
    (hlt : R.length < targetLen) (hroom : R.length < 512) (p : Bytes) (rest : List InEvent) :
    (resume (Pipe.host stack silent) dev 512 buf R targetLen ⟨.packet p :: rest, ()⟩).state.inq <:+ rest := by
  obtain ⟨evs, hm, -, hfirst, -⟩ := readLoop_spec (Pipe.host stack silent) dev maxFrameLen_lt_size buf
    R.length targetLen (R ++ buf.drop R.length) ⟨.packet p :: rest, ()⟩
  obtain ⟨n, x, more, rfl⟩ := hfirst hlt (by rw [capacity_eq maxFrameLen_lt_int hroom.le]; omega)
  obtain ⟨s₁, hx, hm⟩ := hm
  have hs₁ : s₁.inq = rest := (Pipe.bulkIn_cases hx).1
  exact hs₁ ▸ hm.pipe.1

/-- A packet that is decoded by itself, as a header or more, and rejected. -/
def Rejects (p : Bytes) : Prop := 24 ≤ p.length ∧ ∃ ret, decodeHeader p p.length = .error ret

/-- A call that starts on these packets decides on the first one. -/
theorem readFrame_packetize {b : Bytes} (hb : b ≠ []) (stack : Stack) (dev : Device) (buf : Bytes)
    (rest : List InEvent) : let p := b.take 64
    readFrame (Pipe.host stack silent) dev buf 512 0 ⟨(packetize b).map .packet ++ rest, ()⟩ =
      if 24 ≤ p.length then
        match decodeHeader p p.length with
        | .error ret => ⟨ret, p ++ buf.drop p.length, 0, ⟨(packetize (b.drop 64)).map .packet ++ rest, ()⟩⟩
        | .ok h =>
          if h.totalLen.toNat > 512 then
            ⟨.errOverflow, p ++ buf.drop p.length, 0, ⟨(packetize (b.drop 64)).map .packet ++ rest, ()⟩⟩
          else resume (Pipe.host stack silent) dev 512 buf p h.totalLen.toNat
            ⟨(packetize (b.drop 64)).map .packet ++ rest, ()⟩
      else resume (Pipe.host stack silent) dev 512 buf p 24 ⟨(packetize (b.drop 64)).map .packet ++ rest, ()⟩ := by
  intro p
  have hround := resume_packet dev maxFrameLen_lt_int buf (R := []) (show 0 < 24 by decide)
    (isPacket_take hb) (by simp) fun n hn =>
      Pipe.bulkIn_packet stack silent hn ((packetize (b.drop 64)).map .packet ++ rest) ()
  simp only [List.nil_append, true_and] at hround
  rw [readFrame_eq_resume _ _ (by decide), packetize_of_ne hb]
  exact hround

theorem readFrame_rejects {b : Bytes} (hb : b ≠ []) (hrej : Rejects (b.take 64)) (stack : Stack) (dev : Device)
    (buf : Bytes) (rest : List InEvent) : ∃ ret frame, ret ≠ .ok ∧
      readFrame (Pipe.host stack silent) dev buf 512 0 ⟨(packetize b).map .packet ++ rest, ()⟩ =
        ⟨ret, frame, 0, ⟨(packetize (b.drop 64)).map .packet ++ rest, ()⟩⟩ := by
  obtain ⟨h24, ret, hdec⟩ := hrej
  refine ⟨ret, b.take 64 ++ buf.drop (b.take 64).length, decodeHeader_error_ne_ok hdec, ?_⟩
  rw [readFrame_packetize hb, if_pos h24, hdec]

theorem sentEvents_cons (f : Frame) (fs : List Frame) :
    ∃ p more, 0 < p.length ∧ sentEvents (f :: fs) = .packet p :: more := by
  have hne : f.bytes ≠ [] := List.length_pos_iff.mp (by have := f.le_length; omega)
  refine ⟨f.bytes.take 64, (packetize (f.bytes.drop 64)).map .packet ++ sentEvents fs, (isPacket_take hne).pos, ?_⟩
  simp only [sentEvents, List.map_cons, List.flatMap_cons, CutFrame.events, Frame.sent, packetize_of_ne hne]
  rfl

/-- A call that starts on any other packet returns OK, or takes bytes of the
frames that follow. -/
theorem readFrame_swallows {b : Bytes} (hb : b ≠ []) (h512 : b.length ≤ 512) (hrej : ¬Rejects (b.take 64))
    (stack : Stack) (dev : Device) (buf : Bytes) (f : Frame) (fs : List Frame) :
    let r := readFrame (Pipe.host stack silent) dev buf 512 0
      ⟨(packetize b).map .packet ++ sentEvents (f :: fs), ()⟩
    r.ret = .ok ∨ backlog r.state.inq < backlog (sentEvents (f :: fs)) := by
  intro r
  obtain ⟨p, more, hpos, hsent⟩ := sentEvents_cons f fs
  have hshort : ∀ {q : List InEvent}, q <:+ more → backlog q < backlog (.packet p :: more) := by
    intro q hq
    have := backlog_suffix hq
    simp only [backlog, packetsOf, List.flatten_cons, List.length_append] at *
    omega
  have htake : (b.take 64).length = min 64 b.length := List.length_take
  rw [show r = _ from readFrame_packetize hb stack dev buf _, hsent]
  by_cases h24 : 24 ≤ (b.take 64).length
  · -- accepted: the loop goes through the body and on into the next frame
    rw [if_pos h24]
    rcases hdec : decodeHeader (b.take 64) (b.take 64).length with ret | h
    · exact absurd ⟨h24, ret, hdec⟩ hrej
    have hle := ((decodeHeader_eq_ok h24).mp hdec).2.2.totalLen_le
    dsimp only
    rw [if_neg (by omega)]
    rcases resume_body stack dev buf h.totalLen.toNat (.packet p :: more) (b.drop 64) (b.take 64) h24
      (by rwa [List.take_append_drop]) with hok | hgo
    · exact .inl hok
    rw [hgo, List.take_append_drop]
    by_cases hdone : h.totalLen.toNat ≤ b.length
    · rw [resume_done hdone]
      exact .inl rfl
    · exact .inr (hshort (resume_takes stack dev buf (R := b) (by omega) (by omega) p more))
  · -- a short last packet: the next frame's first packet completes a header
    rw [if_neg h24, List.drop_eq_nil_of_le (by omega), packetize_nil, List.map_nil, List.nil_append]
    exact .inr (hshort (resume_takes stack dev buf (R := b.take 64) (by omega) (by omega) p more))

/-! ### Containment -/

/-- Called again and again after a rejected frame `body`, the reader hands
over the frames that follow, and only calls that begin behind `body` return
OK. -/
def Contained (stack : Stack) (dev : Device) (bufs : List Bytes) (body : Bytes) (frames : List Frame) : Prop :=
  let calls := reads (Pipe.host stack silent) dev bufs ⟨(packetize body).map .packet ++ sentEvents frames, ()⟩
  framesOf calls = frames.map Frame.bytes ∧ ∀ c ∈ calls, c.2.ret = .ok → c.1.inq <:+ sentEvents frames

theorem reads_suffix (stack : Stack) (dev : Device) : ∀ (bufs : List Bytes) (s : Pipe Unit),
    ∀ c ∈ reads (Pipe.host stack silent) dev bufs s, c.1.inq <:+ s.inq
  | [], _, c, hc => by cases hc
  | buf :: bufs, s, c, hc => by
    rcases List.mem_cons.mp hc with rfl | hc
    · exact List.suffix_rfl
    · obtain ⟨evs, hm, -⟩ := readFrame_spec (Pipe.host stack silent) dev maxFrameLen_lt_size buf 0 s
      exact (reads_suffix stack dev bufs _ c hc).trans hm.pipe.1

variable {bufs : List Bytes} {frames : List Frame}

theorem sentEvents_eq (frames : List Frame) :
    sentEvents frames = ((frames.map Frame.sent).flatMap CutFrame.packets).map .packet := by
  unfold sentEvents
  rw [List.map_flatMap]
  rfl

theorem backlog_sentEvents (frames : List Frame) :
    backlog (sentEvents frames) = (frames.map Frame.bytes).flatten.length := by
  unfold backlog
  rw [sentEvents_eq, packetsOf_map, flatten_packets, List.map_map]
  rfl

/-- Behind the rejected frame the reader is in step. -/
theorem contained_nil (stack : Stack) (dev : Device) (hlen : (sentEvents frames).length ≤ bufs.length) :
    Contained stack dev bufs [] frames := by
  have hget := (gets_iff stack dev bufs (frames.map Frame.sent) (sentEvents frames) hlen
    (by rw [sentEvents_eq, packetsOf_map])).mpr (sentEvents_eq frames ▸ atBoundaries_packets _ _)
  unfold Contained
  rw [packetize_nil, List.map_nil, List.nil_append]
  refine ⟨?_, fun c hc _ => reads_suffix stack dev bufs _ c hc⟩
  rw [hget.1, List.map_map]
  rfl

/-- A rejected packet is one call. -/
theorem contained_rejects {b : Bytes} (hb : b ≠ []) (hrej : Rejects (b.take 64)) (buf : Bytes) :
    Contained stack dev (buf :: bufs) b frames ↔ Contained stack dev bufs (b.drop 64) frames := by
  obtain ⟨ret, frame, hne, hr⟩ := readFrame_rejects hb hrej stack dev buf (sentEvents frames)
  simp only [Contained, reads, MAX_FRAME_LEN, hr, framesOf, hne, if_false, List.mem_cons, forall_eq_or_imp,
    false_implies, true_and]

theorem not_contained {b : Bytes} (hb : b ≠ []) (h512 : b.length ≤ 512) (hrej : ¬Rejects (b.take 64)) (buf : Bytes)
    (f : Frame) (fs : List Frame) : ¬Contained stack dev (buf :: bufs) b (f :: fs) := by
  rintro ⟨hframes, hsuffix⟩
  have hnok : (readFrame (Pipe.host stack silent) dev buf 512 0
      ⟨(packetize b).map .packet ++ sentEvents (f :: fs), ()⟩).ret ≠ .ok := by
    -- it would be OK for bytes of the rejected frame
    intro hok
    have hle := (hsuffix _ (List.mem_cons_self ..) hok).length_le
    rw [packetize_of_ne hb] at hle
    simp only [List.map_cons, List.cons_append, List.length_cons, List.length_append] at hle
    omega
  rcases readFrame_swallows hb h512 hrej stack dev buf f fs with hok | hlost
  · exact hnok hok
  · -- the calls that are left have too few bytes for the frames
    rw [reads, framesOf, if_neg hnok] at hframes
    have hle := reads_backlog stack dev bufs (readFrame (Pipe.host stack silent) dev buf 512 0
      ⟨(packetize b).map .packet ++ sentEvents (f :: fs), ()⟩).state
    rw [show framesOf _ = _ from hframes, ← backlog_sentEvents] at hle
    omega

theorem contained_of_rejects (frames : List Frame) (b : Bytes) : ∀ bufs : List Bytes,
    (packetize b).length + (sentEvents frames).length ≤ bufs.length → (∀ p ∈ packetize b, Rejects p) →
    Contained stack dev bufs b frames := by
  induction b using packetize.induct with
  | case1 =>
    intro bufs hlen _
    rw [packetize_nil, List.length_nil, Nat.zero_add] at hlen
    exact contained_nil stack dev hlen
  | case2 b hb ih =>
    intro bufs hlen hall
    rw [packetize_of_ne hb, List.length_cons] at hlen
    obtain ⟨buf, bufs, rfl⟩ := List.exists_cons_of_ne_nil (List.length_pos_iff.mp (show 0 < bufs.length by omega))
    rw [packetize_of_ne hb, List.forall_mem_cons] at hall
    rw [List.length_cons] at hlen
    exact (contained_rejects hb hall.1 buf).mpr (ih bufs (by omega) hall.2)

theorem rejects_of_contained (f : Frame) (fs : List Frame) (b : Bytes) : ∀ bufs : List Bytes, b.length ≤ 512 →
    (packetize b).length ≤ bufs.length → Contained stack dev bufs b (f :: fs) → ∀ p ∈ packetize b, Rejects p := by
  induction b using packetize.induct with
  | case1 =>
    intro bufs _ _ _
    simp [packetize_nil]
  | case2 b hb ih =>
    intro bufs h512 hlen hcon
    rw [packetize_of_ne hb, List.length_cons] at hlen
    obtain ⟨buf, bufs, rfl⟩ := List.exists_cons_of_ne_nil (List.length_pos_iff.mp (show 0 < bufs.length by omega))
    rw [List.length_cons] at hlen
    by_cases hrej : Rejects (b.take 64)
    · rw [packetize_of_ne hb, List.forall_mem_cons]
      refine ⟨hrej, ih bufs ?_ (by omega) ((contained_rejects hb hrej buf).mp hcon)⟩
      rw [List.length_drop]
      omega
    · exact absurd hcon (not_contained hb h512 hrej buf f fs)

/-- **A rejected frame is contained** when each of its packets behind the
first is 24 bytes at least and is rejected itself, and with a frame behind it
only then. The calls are enough to read the whole queue. -/
theorem rejected_contained (stack : Stack) (dev : Device) (bufs : List Bytes) (body : Bytes) (frames : List Frame)
    (h24 : 24 ≤ body.length) (h512 : body.length ≤ 512)
    (hrej : decodeHeader body body.length = .error .errProto)
    (hlen : (packetize body).length + (sentEvents frames).length ≤ bufs.length) :
    ((∀ p ∈ (packetize body).tail, Rejects p) → Contained stack dev bufs body frames) ∧
      (frames ≠ [] → Contained stack dev bufs body frames → ∀ p ∈ (packetize body).tail, Rejects p) := by
  have hne : body ≠ [] := List.length_pos_iff.mp (by omega)
  have htake : (body.take 64).length = min 64 body.length := List.length_take
  -- the first packet holds the header
  have hfirst : Rejects (body.take 64) := by
    refine ⟨by omega, .errProto, ?_⟩
    rw [← hrej]
    exact decodeHeader_congr (by rw [List.take_take]; rfl) (by omega) h24
  constructor
  · intro htail
    apply contained_of_rejects frames body bufs hlen
    rw [packetize_of_ne hne, List.forall_mem_cons]
    rw [packetize_of_ne hne, List.tail_cons] at htail
    exact ⟨hfirst, htail⟩
  · intro hframes hcon p hp
    obtain ⟨f, fs, rfl⟩ := List.exists_cons_of_ne_nil hframes
    exact rejects_of_contained f fs body bufs h512 (by omega) hcon p (List.mem_of_mem_tail hp)

/-- A frame of 88 bytes in two packets, with a wrong channel in its header. -/
def spoiledBody : Bytes :=
  (frameBytes (Header.zero.forPayload (List.replicate 64 0x11)) (List.replicate 64 0x11)).set 4 0xFF

theorem rejected_contained_spoiled :
    (packetize spoiledBody).map List.length = [64, 24] ∧
      Contained Stack.zero freshDevice (List.replicate 3 (List.replicate 512 0)) spoiledBody
        [Frame.build Header.zero [0x11] (by decide)] := by
  refine ⟨by decide +kernel, (rejected_contained Stack.zero freshDevice _ spoiledBody _ (by decide +kernel)
    (by decide +kernel) (by decide +kernel) (by decide +kernel)).1 ?_⟩
  -- the second packet is 24 bytes of the payload
  have htail : (packetize spoiledBody).tail = [List.replicate 24 0x11] := by decide +kernel
  intro p hp
  rw [htail, List.mem_singleton] at hp
  subst hp
  exact ⟨by decide, .errProto, by decide +kernel⟩

/-- A rejected frame of 88 bytes whose second packet is a frame itself. -/
theorem lookalike_not_contained :
    ¬∀ (stack : Stack) (dev : Device) (bufs : List Bytes) (body : Bytes) (frames : List Frame),
      24 ≤ body.length → body.length ≤ 512 → decodeHeader body body.length = .error .errProto →
      (packetize body).length + (sentEvents frames).length ≤ bufs.length → Contained stack dev bufs body frames := by
  intro hall
  have h := hall Stack.zero freshDevice (List.replicate 3 (List.replicate 512 0))
    (List.replicate 64 0 ++ frameBytes (Header.zero.forPayload []) [])
    [Frame.build Header.zero [0x11] (by decide)] (by decide +kernel) (by decide +kernel) (by decide +kernel)
    (by decide +kernel)
  exact absurd h.1 (by decide +kernel)

end UsbMux
