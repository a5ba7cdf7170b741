/-
# Timeouts inside a frame

A caller that calls again whenever a read times out gets every frame if the
timeouts fall between frames. What a call has received is in its own buffer
and is dropped when it returns, so a timeout inside a frame costs the part
of the frame before it, and since a call that returns OK takes at least as
many bytes off the queue as it hands over (`reads_backlog`), the frame cannot
be made up for later.

Key definitions: `framesOf`, `SameFrames`.
Key theorem: `timeout_loses_nothing`.
-/
import UsbMux.Stream

namespace UsbMux

variable {σ : Type}

/-! ### What the calls hand over -/

/-- The frames handed over by the calls that returned OK. -/
def framesOf : List (σ × FrameRead σ) → List Bytes
  | [] => []
  | c :: cs => if c.2.ret = .ok then c.2.frame.take c.2.frameLen :: framesOf cs else framesOf cs

/-- No call hands over more than it takes off the queue, and none adds to
it. -/
theorem readFrame_backlog (stack : Stack) (dev : Device) (buf : Bytes) (s : Pipe Unit) :
    let r := readFrame (Pipe.host stack silent) dev buf 512 0 s
    backlog r.state.inq ≤ backlog s.inq ∧
      (r.ret = .ok → (r.frame.take r.frameLen).length + backlog r.state.inq ≤ backlog s.inq) := by
  intro r
  obtain ⟨evs, hm, -, hok⟩ := readFrame_spec (Pipe.host stack silent) dev maxFrameLen_lt_size buf 0 s
  have hle := hm.pipe.2
  refine ⟨le_trans (Nat.le_add_left _ _) hle, fun h => ?_⟩
  obtain ⟨-, hlen, -⟩ := hok h
  calc (r.frame.take r.frameLen).length + backlog r.state.inq ≤ r.frameLen + backlog r.state.inq :=
        Nat.add_le_add_right (List.length_take_le _ _) _
    _ ≤ (received evs).length + backlog r.state.inq := Nat.add_le_add_right hlen _
    _ ≤ backlog s.inq := hle

/-- Nor does a run of calls. -/
theorem reads_backlog (stack : Stack) (dev : Device) : ∀ (bufs : List Bytes) (s : Pipe Unit),
    (framesOf (reads (Pipe.host stack silent) dev bufs s)).flatten.length ≤ backlog s.inq
  | [], _ => Nat.zero_le _
  | buf :: bufs, s => by
    obtain ⟨hle, hok⟩ := readFrame_backlog stack dev buf s
    have ih := reads_backlog stack dev bufs (readFrame (Pipe.host stack silent) dev buf 512 0 s).state
    simp only [reads, framesOf, MAX_FRAME_LEN] at hle hok ih ⊢
    split
    · rename_i hret
      have := hok hret
      rw [List.flatten_cons, List.length_append]
      omega
    · omega

/-! ### Timeouts in a stream -/

/-- Called again and again, the reader gets from the queue `q` the frames it
gets from the same packets with no timeout between them, and no call returns
an error but a timeout. -/
def SameFrames (stack : Stack) (dev : Device) (bufs : List Bytes) (q : List InEvent) : Prop :=
  framesOf (reads (Pipe.host stack silent) dev bufs ⟨q, ()⟩) =
      framesOf (reads (Pipe.host stack silent) dev bufs ⟨(packetsOf q).map .packet, ()⟩) ∧
    ∀ c ∈ reads (Pipe.host stack silent) dev bufs ⟨q, ()⟩, c.2.ret = .ok ∨ c.2.ret = .errTimeout

/-- Every timeout of `q` falls between two of the frames. -/
def AtBoundaries (frames : List CutFrame) (q : List InEvent) : Prop :=
  ∀ pre post, q = pre ++ .timeout :: post → ∃ k, packetsOf pre = (frames.take k).flatMap CutFrame.packets

theorem AtBoundaries.timeout {frames : List CutFrame} {q : List InEvent} :
    AtBoundaries frames (.timeout :: q) ↔ AtBoundaries frames q := by
  constructor
  · rintro h pre post rfl
    exact h (.timeout :: pre) post rfl
  · rintro h (_ | ⟨e, pre⟩) post hq
    · exact ⟨0, rfl⟩
    · obtain ⟨rfl, rfl⟩ := List.cons.inj hq
      exact h pre post rfl

theorem CutFrame.packets_ne_nil (f : CutFrame) : f.packets ≠ [] := by
  intro h
  have h24 := f.le_length
  rw [← f.join, h] at h24
  simp at h24

theorem AtBoundaries.frame {f : CutFrame} {fs : List CutFrame} {q : List InEvent} :
    AtBoundaries (f :: fs) (f.events ++ q) ↔ AtBoundaries fs q := by
  constructor
  · rintro h pre post rfl
    obtain ⟨k, hk⟩ := h (f.events ++ pre) post (List.append_assoc ..).symm
    rw [packetsOf_append, CutFrame.events, packetsOf_map] at hk
    cases k with
    | zero => exact absurd (List.append_eq_nil_iff.mp hk).1 f.packets_ne_nil
    | succ k =>
      rw [List.take_succ_cons, List.flatMap_cons] at hk
      exact ⟨k, List.append_cancel_left hk⟩
  · intro h pre post hq
    rcases List.append_eq_append_iff.mp hq with ⟨more, rfl, hpost⟩ | ⟨more, hf, hpost⟩
    · obtain ⟨k, hk⟩ := h more post hpost
      refine ⟨k + 1, ?_⟩
      rw [packetsOf_append, hk, CutFrame.events, packetsOf_map, List.take_succ_cons, List.flatMap_cons]
    · -- a frame's own events hold no timeout
      rcases more with _ | ⟨e, more⟩
      · rw [List.append_nil] at hf
        exact ⟨1, by rw [← hf, CutFrame.events, packetsOf_map]; simp⟩
      · obtain ⟨rfl, -⟩ := List.cons.inj hpost
        have hmem : InEvent.timeout ∈ f.events := hf ▸ by simp
        simp [CutFrame.events] at hmem

/-- No timeout in the queue. -/
theorem atBoundaries_packets (frames : List CutFrame) (ps : List Bytes) :
    AtBoundaries frames (ps.map .packet) := by
  intro pre post hq
  have hmem : InEvent.timeout ∈ ps.map InEvent.packet := hq ▸ by simp
  simp at hmem

/-- A queue that starts with the packets `ps` has them in one run, or has a
timeout in that run. -/
theorem run_or_timeout {more : List Bytes} : ∀ {ps : List Bytes} {q : List InEvent}, packetsOf q = ps ++ more →
    (∃ rest, q = ps.map .packet ++ rest ∧ packetsOf rest = more) ∨
      ∃ ps₁ ps₂ rest, ps = ps₁ ++ ps₂ ∧ ps₂ ≠ [] ∧ q = ps₁.map .packet ++ .timeout :: rest ∧
        packetsOf rest = ps₂ ++ more
  | [], q, h => .inl ⟨q, rfl, h⟩
  | p :: ps, [], h => by simp [packetsOf] at h
  | p :: ps, .timeout :: q, h => .inr ⟨[], p :: ps, q, rfl, by simp, rfl, h⟩
  | p :: ps, .packet p' :: q, h => by
    obtain ⟨rfl, htail⟩ := List.cons.inj h
    rcases run_or_timeout htail with ⟨rest, rfl, hr⟩ | ⟨ps₁, ps₂, rest, rfl, hne, rfl, hr⟩
    · exact .inl ⟨rest, rfl, hr⟩
    · exact .inr ⟨p' :: ps₁, ps₂, rest, rfl, hne, rfl, hr⟩

theorem length_packetsOf_le : ∀ q : List InEvent, (packetsOf q).length ≤ q.length
  | [] => le_rfl
  | .packet _ :: q => Nat.succ_le_succ (length_packetsOf_le q)
  | .timeout :: q => le_trans (length_packetsOf_le q) (Nat.le_succ _)

/-- The calls get these frames, and no error but a timeout. -/
def Gets (stack : Stack) (dev : Device) (bufs : List Bytes) (q : List InEvent) (frames : List Bytes) : Prop :=
  framesOf (reads (Pipe.host stack silent) dev bufs ⟨q, ()⟩) = frames ∧
    ∀ c ∈ reads (Pipe.host stack silent) dev bufs ⟨q, ()⟩, c.2.ret = .ok ∨ c.2.ret = .errTimeout

theorem flatten_pos : ∀ {ps : List Bytes}, ps ≠ [] → (∀ p ∈ ps, IsPacket p) → 0 < ps.flatten.length
  | p :: ps, _, h => by
    have := (h p (by simp)).pos
    rw [List.flatten_cons, List.length_append]
    omega

theorem flatten_packets : ∀ frames : List CutFrame,
    (frames.flatMap CutFrame.packets).flatten = (frames.map fun f => f.bytes).flatten
  | [] => rfl
  | f :: fs => by
    rw [List.flatMap_cons, List.flatten_append, f.join, flatten_packets fs, List.map_cons, List.flatten_cons]

variable {stack : Stack} {dev : Device} {buf : Bytes} {bufs : List Bytes} {frames : List Bytes}

theorem gets_of_timeout {q q₁ : List InEvent} {frame : Bytes} {frameLen : ℕ}
    (hr : readFrame (Pipe.host stack silent) dev buf 512 0 ⟨q, ()⟩ = ⟨.errTimeout, frame, frameLen, ⟨q₁, ()⟩⟩) :
    Gets stack dev (buf :: bufs) q frames ↔ Gets stack dev bufs q₁ frames := by
  simp only [Gets, reads, MAX_FRAME_LEN, hr, framesOf, reduceCtorEq, if_false, List.mem_cons, forall_eq_or_imp,
    or_true, true_and]

theorem gets_of_frame {f : CutFrame} {q : List InEvent} :
    Gets stack dev (buf :: bufs) (f.events ++ q) (f.bytes :: frames) ↔ Gets stack dev bufs q frames := by
  have hr := readFrame_of_delivers maxFrameLen_lt_int buf 0 f f.length_le
    (Pipe.delivers stack silent dev.timeoutMs () q f.events)
  simp only [Gets, reads, MAX_FRAME_LEN, hr, framesOf, if_true, List.take_left', List.mem_cons, forall_eq_or_imp,
    true_or, true_and, List.cons.injEq]

/-- A timeout inside a frame is not at a boundary. -/
theorem not_atBoundaries_cut {f : CutFrame} {fs : List CutFrame} {ps₁ ps₂ : List Bytes} {rest : List InEvent}
    (hsplit : f.packets = ps₁ ++ ps₂) (h₁ : ps₁ ≠ []) (h₂ : ps₂ ≠ []) :
    ¬AtBoundaries (f :: fs) (ps₁.map .packet ++ .timeout :: rest) := by
  intro hb
  obtain ⟨k, hk⟩ := hb _ rest rfl
  rw [packetsOf_map] at hk
  cases k with
  | zero => exact h₁ hk
  | succ k =>
    rw [List.take_succ_cons, List.flatMap_cons, hsplit, List.append_assoc] at hk
    have hlen := congrArg List.length hk
    have hpos := List.length_pos_iff.mpr h₂
    rw [List.length_append, List.length_append] at hlen
    omega

/-- A timeout inside a frame costs the packets before it, and what is left of
the queue is too short for the frames. -/
theorem not_gets_cut {f : CutFrame} {fs : List CutFrame} {ps₁ ps₂ : List Bytes} {rest : List InEvent}
    (hsplit : f.packets = ps₁ ++ ps₂) (h₁ : ps₁ ≠ []) (h₂ : ps₂ ≠ [])
    (hpk : packetsOf rest = ps₂ ++ fs.flatMap CutFrame.packets) :
    ¬Gets stack dev (buf :: bufs) (ps₁.map .packet ++ .timeout :: rest) ((f :: fs).map fun f => f.bytes) := by
  have hpackets : ∀ p ∈ ps₁ ++ ps₂, IsPacket p := hsplit ▸ f.isPacket
  obtain ⟨hps₁, hps₂⟩ := List.forall_mem_append.mp hpackets
  have hbytes : f.bytes = ps₁.flatten ++ ps₂.flatten := by rw [← f.join, hsplit, List.flatten_append]
  have hpos₁ := flatten_pos h₁ hps₁
  have hpos₂ := flatten_pos h₂ hps₂
  have hlost := readFrame_of_timeout maxFrameLen_lt_int buf 0 f.toFrame f.length_le hps₁ ⟨_, hbytes.symm⟩
    (by rw [hbytes, List.length_append]; omega) (Pipe.delivers stack silent dev.timeoutMs () rest _)
  rw [List.append_assoc, List.singleton_append] at hlost
  rw [gets_of_timeout hlost]
  intro hget
  have htotal : ((f :: fs).map fun f => f.bytes).flatten.length = ps₁.flatten.length + backlog rest := by
    unfold backlog
    rw [hpk, List.map_cons, List.flatten_cons, hbytes, List.flatten_append, flatten_packets, List.append_assoc,
      List.length_append]
  have hle := reads_backlog stack dev bufs ⟨rest, ()⟩
  rw [hget.1] at hle
  dsimp only at hle
  omega

/-- The calls get the frames exactly when the timeouts fall between them. -/
theorem gets_iff (stack : Stack) (dev : Device) (bufs : List Bytes) (frames : List CutFrame) (q : List InEvent)
    (hlen : q.length ≤ bufs.length) (hq : packetsOf q = frames.flatMap CutFrame.packets) :
    Gets stack dev bufs q (frames.map fun f => f.bytes) ↔ AtBoundaries frames q := by
  induction bufs generalizing frames q with
  | nil =>
    obtain rfl := List.length_eq_zero_iff.mp (Nat.le_zero.mp hlen)
    rcases frames with _ | ⟨f, fs⟩
    · exact ⟨fun _ pre post h => by simp at h, fun _ => ⟨rfl, by simp [reads]⟩⟩
    · exact absurd (List.append_eq_nil_iff.mp hq.symm).1 f.packets_ne_nil
  | cons buf bufs ih =>
    rcases q with _ | ⟨_ | _, q⟩
    · -- the queue is empty: this call and all later ones time out
      rw [gets_of_timeout (readFrame_timeout buf fun _ => rfl)]
      exact ih frames [] (Nat.zero_le _) hq
    · rename_i p
      rcases frames with _ | ⟨f, fs⟩
      · simp [packetsOf] at hq
      rw [List.flatMap_cons] at hq
      rcases run_or_timeout hq with ⟨rest, hrest, hpk⟩ | ⟨ps₁, ps₂, rest, hsplit, hne, hrest, hpk⟩
      · -- the frame arrives in one run
        have hshort : rest.length < (InEvent.packet p :: q).length := by
          have := List.length_pos_iff.mpr f.packets_ne_nil
          rw [hrest, List.length_append, List.length_map]
          omega
        rw [hrest, List.map_cons]
        refine gets_of_frame.trans ((ih fs rest ?_ hpk).trans AtBoundaries.frame.symm)
        simp only [List.length_cons] at hlen hshort
        omega
      · -- a timeout inside the frame, behind `ps₁`
        have hne₁ : ps₁ ≠ [] := by
          rintro rfl
          cases hrest
        rw [hrest]
        exact iff_of_false (not_gets_cut hsplit hne₁ hne hpk) (not_atBoundaries_cut hsplit hne₁ hne)
    · rw [gets_of_timeout (readFrame_timeout buf fun _ => rfl), AtBoundaries.timeout]
      exact ih frames q (Nat.le_of_succ_le_succ hlen) hq

/-- **A timeout loses nothing** exactly when every timeout falls between two
frames. The calls are as many as the queue has transfers, or more, so that
all of it is read. -/
theorem timeout_loses_nothing (stack : Stack) (dev : Device) (bufs : List Bytes) (frames : List CutFrame)
    (q : List InEvent) (hlen : q.length ≤ bufs.length) (hq : packetsOf q = frames.flatMap CutFrame.packets) :
    SameFrames stack dev bufs q ↔ AtBoundaries frames q := by
  have hnone : Gets stack dev bufs ((packetsOf q).map .packet) (frames.map fun f => f.bytes) := by
    refine (gets_iff stack dev bufs frames _ ?_ (by rw [packetsOf_map, hq])).mpr (atBoundaries_packets _ _)
    rw [List.length_map]
    exact (length_packetsOf_le q).trans hlen
  rw [← gets_iff stack dev bufs frames q hlen hq, SameFrames, hnone.1]
  rfl

theorem timeout_loses_nothing_between :
    SameFrames Stack.zero freshDevice (List.replicate 7 (List.replicate 512 0))
        (splitFrame.events ++ .timeout :: splitFrame.events) ↔
      AtBoundaries [splitFrame, splitFrame] (splitFrame.events ++ .timeout :: splitFrame.events) :=
  timeout_loses_nothing _ _ _ [splitFrame, splitFrame] _ (by decide +kernel) (by decide +kernel)

/-- A timeout behind the first 5 bytes of a frame. -/
theorem timeout_inside_frame :
    ¬∀ (stack : Stack) (dev : Device) (bufs : List Bytes) (frames : List CutFrame) (q : List InEvent),
      q.length ≤ bufs.length → packetsOf q = frames.flatMap CutFrame.packets → SameFrames stack dev bufs q := by
  intro hall
  have h := hall Stack.zero freshDevice (List.replicate 3 (List.replicate 512 0)) [splitFrame]
    [.packet (splitFrame.bytes.take 5), .timeout, .packet (splitFrame.bytes.drop 5)] (by decide) rfl
  exact absurd h.1 (by decide +kernel)

end UsbMux
