/-
# When a read reports an overflow

`ERR_OVERFLOW` from the reader has a reason in what the call was given and
what it has received (`OverflowCause`): no room for a header, or a header
that announces more than a frame or than the buffer holds. It has none in
one place. The loop narrows what is left of the capacity to an `int` before
it clamps it to a packet, so a capacity of 2^31 or more can come out as
nothing, and the loop leaves with `ERR_OVERFLOW` where it still has room
(`Narrowed`).

A read is honest when it does not come to that exit (`meansOverflow_iff`),
and for a capacity none does when what the narrowing leaves of it holds
whatever frame the buffer holds (`NarrowsWell`).

Key definitions: `OverflowCause`, `MeansOverflow`, `Narrowed`, `ReadsAs`,
`NarrowsWell`.
Key theorems: `meansOverflow_iff`, `readsAs_iff`, `overflow_means_overflow`.
-/
import UsbMux.Stream

namespace UsbMux

variable {σ : Type} {host : Host σ} {dev : Device}

/-! ### The reasons for an overflow -/

/-- A header that announces more than a frame holds, with a `payload_len` to
match. -/
def TooLong (h : Header) : Prop :=
  512 < h.totalLen.toNat ∧ h.totalLen.toNat = 24 + h.payloadLen.toNat

/-- The shape check overflows over such a header only. -/
theorem tooLong_of_shape {h : Header} (hs : checkHeaderShape h = .errOverflow) : TooLong h := by
  unfold checkHeaderShape at hs
  simp only [HEADER_LEN, MAX_FRAME_LEN] at hs
  split_ifs at hs with h1 h2 h3 h4 h5
  have hlen := not_not.mp h3
  have hsum := not_not.mp h4
  have hpayload := h.payloadLen.toNat_lt
  exact ⟨h5, by omega⟩

theorem tooLong_of_decode {src : Bytes} {n : ℕ} (hd : decodeHeader src n = .error .errOverflow) :
    TooLong (deserializeHeader src) := by
  obtain hproto | ⟨-, hshape⟩ := decodeHeader_error_inv hd
  · cases hproto
  · exact tooLong_of_shape hshape

/-- Why a read into `cap` bytes that has received `R` may report an overflow. -/
def OverflowCause (cap : ℕ) (R : Bytes) : Prop :=
  cap < 24 ∨ 24 ≤ R.length ∧
    (TooLong (deserializeHeader R) ∨ ∃ h, decodeHeader R R.length = .ok h ∧ cap < h.totalLen.toNat)

theorem Refused.cause {cap : ℕ} {R : Bytes} (h : Refused cap R) : OverflowCause cap R := by
  obtain ⟨h24, hdec | hbig⟩ := h
  · exact .inr ⟨h24, .inl (tooLong_of_decode hdec)⟩
  · exact .inr ⟨h24, .inr hbig⟩

/-- The loop has no reason to overflow after a round that let it go on. -/
theorem Rounded.not_cause {cap : ℕ} (hcap : 24 ≤ cap) {b : LoopState σ} (h : Rounded cap b) :
    ¬OverflowCause cap b.received := by
  intro hcause
  obtain hsmall | ⟨h24, hcause⟩ := hcause
  · omega
  obtain ⟨hfew, -⟩ | ⟨-, header, hdec, ht⟩ := h.target
  · omega
  have hcaple := h.le_cap
  have hle := h.targetLen_le
  obtain hlong | ⟨header', hdec', hbig⟩ := hcause
  · rw [deserializeHeader_of_decode hdec] at hlong
    have hlong := hlong.1
    omega
  · have hsame : header = header' := Except.ok.inj (hdec.symm.trans hdec')
    subst hsame
    omega

/-! ### The exit the narrowing opens -/

/-- The read comes to a round whose capacity narrows to nothing. -/
def Narrowed (host : Host σ) (dev : Device) (cap : ℕ) (s : σ) : Prop :=
  24 ≤ cap ∧ ∃ b, Relation.ReflTransGen (Round host dev cap) (LoopState.start s) b ∧
    b.received.length < b.targetLen ∧ asInt (sizeSub cap b.received.length) ≤ 0

theorem narrowed_logged {cap : ℕ} {s : σ} :
    Narrowed host.logged dev cap (s, []) ↔ Narrowed host dev cap s := by
  refine ⟨fun h => ?_, fun h => ?_⟩
  · obtain ⟨hcap, b, hrounds, hend⟩ := h
    exact ⟨hcap, _, rounds_of_logged hrounds, hend⟩
  · obtain ⟨hcap, b, hrounds, hend⟩ := h
    obtain ⟨log, hlogged⟩ := rounds_logged hrounds []
    exact ⟨hcap, _, hlogged, hend⟩

/-- If the read reports an overflow, it had a reason to. -/
def MeansOverflow (host : Host σ) (dev : Device) (cap : ℕ) (buf : Bytes) (frameLen : ℕ) (s : σ) : Prop :=
  let r := readFrame host.logged dev buf cap frameLen (s, [])
  r.ret = .errOverflow → OverflowCause cap (received r.state.2)

/-- At that exit there is no reason. -/
theorem Narrowed.not_meansOverflow {cap : ℕ} (hcap : cap < 2 ^ 64) (buf : Bytes) (frameLen : ℕ) {s : σ}
    (h : Narrowed host dev cap s) : ¬MeansOverflow host dev cap buf frameLen s := by
  obtain ⟨h24, b, hrounds, hlt, hc⟩ := narrowed_logged.mpr h
  have hround := rounds_rounded hcap hrounds (Rounded.start h24 _)
  have hr : readFrame host.logged dev buf cap frameLen (s, []) = _ :=
    (readFrame_of_rounds h24 buf frameLen hrounds).trans (resume_narrowed hlt hc)
  intro hmeans
  unfold MeansOverflow at hmeans
  rw [hr] at hmeans
  have hcause := hmeans rfl
  rw [rounds_log hrounds rfl] at hcause
  exact hround.not_cause h24 hcause

/-- **A read is honest** unless it comes to the exit the narrowing opens. -/
theorem meansOverflow_iff {cap : ℕ} (hcap : cap < 2 ^ 64) (buf : Bytes) (frameLen : ℕ) (s : σ) :
    MeansOverflow host dev cap buf frameLen s ↔ ¬Narrowed host dev cap s := by
  refine ⟨fun hmeans hnarrowed => hnarrowed.not_meansOverflow hcap buf frameLen hmeans, fun hnot => ?_⟩
  unfold MeansOverflow
  intro r hret
  by_cases h24 : 24 ≤ cap
  · obtain ⟨b, hrounds, hlast⟩ := exists_last host.logged dev cap (LoopState.start (s, []))
    have hr : r = _ := readFrame_of_rounds h24 buf frameLen hrounds
    rw [hr] at hret ⊢
    obtain ⟨hok, -⟩ | ⟨-, hlt, hc, -⟩ | ⟨-, n, x, hx, hrefused⟩ := last_round buf hlast
    · rw [hok] at hret
      cases hret
    · exact absurd (narrowed_logged.mp ⟨h24, b, hrounds, hlt, hc⟩) hnot
    · rw [received_logged hx, rounds_log hrounds rfl]
      exact (hrefused hret).cause
  · exact .inl (Nat.not_le.mp h24)

/-! ### Capacities -/

/-- A capacity that an `int` holds, or that narrows to room for any frame. -/
def NarrowsWell (cap : ℕ) : Prop := cap < 2 ^ 31 ∨ 512 ≤ cap % 2 ^ 32 ∧ cap % 2 ^ 32 < 2 ^ 31

instance (cap : ℕ) : Decidable (NarrowsWell cap) := inferInstanceAs (Decidable (_ ∨ _))

/-- Such a capacity has room for whatever frame fits the buffer. -/
theorem narrowsWell_iff {cap : ℕ} : NarrowsWell cap ↔ min 512 cap ≤ room cap := by
  unfold NarrowsWell room asInt Int.bmod
  simp only [Nat.cast_pow, Nat.cast_ofNat]
  split_ifs <;> omega

example : NarrowsWell 512 ∧ ¬NarrowsWell (2 ^ 31) ∧ ¬NarrowsWell (2 ^ 32 + 100) ∧ NarrowsWell (2 ^ 32 + 512) := by
  decide

theorem NarrowsWell.not_narrowed {cap : ℕ} (hcap : cap < 2 ^ 64) (hwell : NarrowsWell cap) (s : σ) :
    ¬Narrowed host dev cap s := by
  intro hnarrowed
  obtain ⟨h24, b, hrounds, hlt, hc⟩ := hnarrowed
  have hround := rounds_rounded hcap hrounds (Rounded.start h24 s)
  have hroom : room cap ≤ b.received.length := (hround.narrows_iff hcap).mp hc
  have h512 := hround.targetLen_le
  have hle := hround.le_cap
  have hmin := narrowsWell_iff.mp hwell
  omega

theorem isPacket_bytewise (bytes : Bytes) : ∀ p ∈ bytes.map fun b => [b], IsPacket p := by
  simp [IsPacket]

theorem flatten_bytewise (bytes : Bytes) : (bytes.map fun b => [b]).flatten = bytes := by
  rw [← List.flatMap_def, List.flatMap_singleton']

/-- A frame sent a byte at a time. -/
def Frame.bytewise (f : Frame) : CutFrame where
  toFrame := f
  packets := f.bytes.map fun b => [b]
  join := flatten_bytewise f.bytes
  isPacket := isPacket_bytewise f.bytes

/-- The loop comes to any byte of such a frame that there is room for. -/
theorem rounds_bytewise {cap n : ℕ} (hcap : cap < 2 ^ 64) {f : Frame} (hf : f.bytes.length ≤ cap)
    (hn : n ≤ f.bytes.length) (hroom : n ≤ room cap) {s s' : σ}
    (hd : Delivers host dev.timeoutMs s f.bytewise.events s') :
    ∃ s₁, Relation.ReflTransGen (Round host dev cap) (LoopState.start s)
      ⟨f.bytes.take n, target f.bytes.length n, s₁⟩ := by
  have hsplit : f.bytewise.events = ((f.bytes.take n).map fun b => [b]).map .packet ++
      ((f.bytes.drop n).map fun b => [b]).map .packet := by
    rw [← List.map_append, ← List.map_append, List.take_append_drop]
    rfl
  rw [hsplit] at hd
  obtain ⟨s₁, hfront, -⟩ := delivers_append.mp hd
  have hflat : [] ++ ((f.bytes.take n).map fun b => [b]).flatten = f.bytes.take n := flatten_bytewise _
  have htake : (f.bytes.take n).length = n := List.length_take_of_le hn
  have hprefix : ([] ++ ((f.bytes.take n).map fun b => [b]).flatten) <+: f.bytes := by
    rw [hflat]
    exact List.take_prefix n f.bytes
  have hfit : ([] ++ ((f.bytes.take n).map fun b => [b]).flatten).length ≤ room cap := by
    rwa [hflat, htake]
  have hrounds := rounds_packets hcap hf hprefix hfit (isPacket_bytewise _) hfront
  rw [hflat, htake] at hrounds
  exact ⟨s₁, hrounds⟩

/-- Where the narrowing leaves less, a frame of the largest size takes the
read to the exit it opens. -/
theorem narrowed_of_not {cap : ℕ} (hcap : cap < 2 ^ 64) (hbad : ¬NarrowsWell cap) {f : Frame}
    (hf : f.bytes.length = 512) {s s' : σ} (hd : Delivers host dev.timeoutMs s f.bytewise.events s') :
    Narrowed host dev cap s := by
  have hroom : room cap < min 512 cap := Nat.not_le.mp (mt narrowsWell_iff.mpr hbad)
  have hint : ¬cap < 2 ^ 31 := fun hlt => hbad (.inl hlt)
  have h24 : 24 ≤ cap := by omega
  obtain ⟨s₁, hrounds⟩ := rounds_bytewise hcap (by omega) (by omega) le_rfl hd
  have hround := rounds_rounded hcap hrounds (Rounded.start h24 s)
  have htake : (f.bytes.take (room cap)).length = room cap := List.length_take_of_le (by omega)
  have hwants : room cap < target f.bytes.length (room cap) := by
    unfold target
    split <;> omega
  exact ⟨h24, _, hrounds, htake.trans_lt hwants, (hround.narrows_iff hcap).mpr htake.ge⟩

/-- Such a frame. -/
def fullFrame : Frame := Frame.build Header.zero (List.replicate 488 0) (by rw [List.length_replicate])

theorem length_fullFrame : fullFrame.bytes.length = 512 := by
  unfold fullFrame Frame.build
  rw [length_frameBytes, List.length_replicate]

/-! ### A larger buffer -/

/-- The read handed over `f`. -/
def ReadsAs (f : CutFrame) (r : FrameRead σ) : Prop := r.ret = .ok ∧ r.frame.take r.frameLen = f.bytes

/-- What a read hands over fits the room. -/
theorem frameLen_le_room {cap : ℕ} (hcap : cap < 2 ^ 64) {buf : Bytes} {frameLen : ℕ} {s : σ}
    (hok : (readFrame host dev buf cap frameLen s).ret = .ok) :
    (readFrame host dev buf cap frameLen s).frameLen ≤ room cap := by
  by_cases h24 : 24 ≤ cap
  · obtain ⟨b, hrounds, hlast⟩ := exists_last host dev cap (LoopState.start s)
    have hround := rounds_rounded hcap hrounds (Rounded.start h24 s)
    rw [readFrame_of_rounds h24 buf frameLen hrounds] at hok ⊢
    obtain ⟨-, hdone, hlen⟩ | ⟨hover, -⟩ | ⟨hfails, -⟩ := last_round buf hlast
    · exact hlen.le.trans (hdone.trans hround.le_room)
    · rw [hover] at hok
      cases hok
    · exact absurd hok hfails
  · have hr : readFrame host dev buf cap frameLen s = ⟨.errOverflow, buf, frameLen, s⟩ := if_pos (Nat.not_le.mp h24)
    rw [hr] at hok
    cases hok

/-- **A frame is read** when the narrowing leaves room for it. -/
theorem readsAs_iff {cap : ℕ} (hcap : cap < 2 ^ 64) (buf : Bytes) (frameLen : ℕ) {f : CutFrame} {s s' : σ}
    (hd : Delivers host dev.timeoutMs s f.events s') :
    ReadsAs f (readFrame host dev buf cap frameLen s) ↔ f.bytes.length ≤ room cap := by
  refine ⟨fun h => ?_, fun hf => ?_⟩
  · obtain ⟨hok, hbytes⟩ := h
    rw [← hbytes]
    exact (List.length_take_le _ _).trans (frameLen_le_room hcap hok)
  · rw [readFrame_of_room hcap buf frameLen f hf hd]
    exact ⟨rfl, List.take_left' rfl⟩

/-! ### Overflow means overflow -/

/-- No read into `cap` bytes reports an overflow without a reason. -/
def AlwaysMeansOverflow (cap : ℕ) : Prop :=
  ∀ (σ : Type) (host : Host σ) (dev : Device) (buf : Bytes) (frameLen : ℕ) (s : σ),
    MeansOverflow host dev cap buf frameLen s

/-- No read comes to the exit the narrowing opens. -/
def ExitUnreachable (cap : ℕ) : Prop := ∀ (σ : Type) (host : Host σ) (dev : Device) (s : σ), ¬Narrowed host dev cap s

/-- A frame that is read into a smaller buffer is read into `cap` bytes. -/
def KeepsReads (cap : ℕ) : Prop :=
  ∀ (σ : Type) (host : Host σ) (dev : Device) (small : ℕ) (buf buf' : Bytes) (frameLen : ℕ) (f : CutFrame) (s s' : σ),
    small ≤ cap → Delivers host dev.timeoutMs s f.events s' →
      ReadsAs f (readFrame host dev buf small frameLen s) → ReadsAs f (readFrame host dev buf' cap frameLen s)

theorem exitUnreachable_iff {cap : ℕ} (hcap : cap < 2 ^ 64) : ExitUnreachable cap ↔ NarrowsWell cap := by
  refine ⟨fun hnever => ?_, fun hwell σ host dev s => hwell.not_narrowed hcap s⟩
  by_contra hbad
  have hd := Pipe.delivers_all Stack.zero silent freshDevice.timeoutMs () fullFrame.bytewise.events
  apply hnever _ _ freshDevice
  exact narrowed_of_not hcap hbad length_fullFrame hd

theorem alwaysMeansOverflow_iff {cap : ℕ} (hcap : cap < 2 ^ 64) : AlwaysMeansOverflow cap ↔ NarrowsWell cap := by
  rw [← exitUnreachable_iff hcap]
  refine ⟨fun hmeans σ host dev s => ?_, fun hnever σ host dev buf frameLen s => ?_⟩
  · exact (meansOverflow_iff hcap (List.replicate cap 0) 0 s).mp (hmeans σ host dev _ 0 s)
  · exact (meansOverflow_iff hcap buf frameLen s).mpr (hnever σ host dev s)

theorem keepsReads_iff {cap : ℕ} (hcap : cap < 2 ^ 64) : KeepsReads cap ↔ NarrowsWell cap := by
  refine ⟨fun hkeeps => ?_, fun hwell σ host dev small buf buf' frameLen f s s' hle hd hread => ?_⟩
  · by_contra hbad
    have hlen : fullFrame.bytewise.bytes.length = 512 := length_fullFrame
    have hroom := mt narrowsWell_iff.mpr hbad
    have hint : ¬cap < 2 ^ 31 := fun hlt => hbad (.inl hlt)
    have hd := Pipe.delivers_all Stack.zero silent freshDevice.timeoutMs () fullFrame.bytewise.events
    have hsmall : ReadsAs fullFrame.bytewise (readFrame (Pipe.host Stack.zero silent) freshDevice
        (List.replicate 512 0) 512 0 ⟨fullFrame.bytewise.events, ()⟩) := by
      apply (readsAs_iff maxFrameLen_lt_size _ 0 hd).mpr
      rw [hlen, room_of_lt maxFrameLen_lt_int]
    have hlarge := hkeeps _ _ freshDevice 512 _ (List.replicate cap 0) 0 _ _ _ (by omega) hd hsmall
    have hfits := (readsAs_iff hcap _ 0 hd).mp hlarge
    omega
  · have hsmall := (readsAs_iff (by omega) buf frameLen hd).mp hread
    have hbuf := hsmall.trans (room_le small)
    have hlen := f.length_le
    have hroom := narrowsWell_iff.mp hwell
    apply (readsAs_iff hcap buf' frameLen hd).mpr
    omega

/-- **ERR_OVERFLOW means overflow** for the capacities that narrow well, and
for no other: there reads have a reason to report it, none comes to the exit
for a capacity that is nothing, and none loses a frame that a smaller buffer
gets. A single read has a reason unless it comes to that exit. -/
theorem overflow_means_overflow (host : Host σ) (dev : Device) (cap : ℕ) (hcap : cap < 2 ^ 64) (buf : Bytes)
    (frameLen : ℕ) (s : σ) :
    (AlwaysMeansOverflow cap ↔ NarrowsWell cap) ∧ (ExitUnreachable cap ↔ NarrowsWell cap) ∧
      (KeepsReads cap ↔ NarrowsWell cap) ∧
      (MeansOverflow host dev cap buf frameLen s ↔ ¬Narrowed host dev cap s) :=
  ⟨alwaysMeansOverflow_iff hcap, exitUnreachable_iff hcap, keepsReads_iff hcap,
    meansOverflow_iff hcap buf frameLen s⟩

theorem overflow_means_overflow_large :
    let host := Pipe.host Stack.zero silent
    let cap := 2 ^ 32 + 100
    (AlwaysMeansOverflow cap ↔ NarrowsWell cap) ∧ (ExitUnreachable cap ↔ NarrowsWell cap) ∧
      (KeepsReads cap ↔ NarrowsWell cap) ∧
      (MeansOverflow host freshDevice cap (List.replicate cap 0) 0 ⟨splitFrame.events, ()⟩ ↔
        ¬Narrowed host freshDevice cap ⟨splitFrame.events, ()⟩) :=
  overflow_means_overflow _ freshDevice (2 ^ 32 + 100) (by decide) _ 0 _

/-- A buffer of 2 GiB narrows to less than nothing: the read makes no
transfer, and reports an overflow over a frame that 512 bytes hold. -/
theorem two_gib_overflows :
    let host := Pipe.host Stack.zero silent
    let s : Pipe Unit := ⟨splitFrame.events, ()⟩
    ¬MeansOverflow host freshDevice (2 ^ 31) (List.replicate (2 ^ 31) 0) 0 s ∧
      Narrowed host freshDevice (2 ^ 31) s ∧
      ReadsAs splitFrame (readFrame host freshDevice (List.replicate 512 0) 512 0 s) ∧
      ¬ReadsAs splitFrame (readFrame host freshDevice (List.replicate (2 ^ 31) 0) (2 ^ 31) 0 s) := by
  intro host s
  have hd := Pipe.delivers_all Stack.zero silent freshDevice.timeoutMs () splitFrame.events
  have hcap : 2 ^ 31 < 2 ^ 64 := by norm_num
  have hroom : room (2 ^ 31) = 0 := by
    unfold room
    decide
  have hnarrowed : Narrowed host freshDevice (2 ^ 31) s :=
    ⟨by norm_num, LoopState.start s, .refl, Nat.zero_lt_succ _, show asInt (sizeSub (2 ^ 31) 0) ≤ 0 by decide⟩
  refine ⟨fun hmeans => (meansOverflow_iff hcap _ 0 s).mp hmeans hnarrowed, hnarrowed, ?_, ?_⟩
  · apply (readsAs_iff maxFrameLen_lt_size _ 0 hd).mpr
    rw [room_of_lt maxFrameLen_lt_int]
    exact splitFrame.length_le
  · intro hread
    have hlen := (readsAs_iff hcap _ 0 hd).mp hread
    have h24 := splitFrame.le_length
    omega

end UsbMux
