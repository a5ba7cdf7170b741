/-
# A device behind a USB link

A device that talks frames (`React`: what it sends for a frame it gets),
behind a link that carries bytes. Each OUT transfer takes some of the bytes
offered, at least one; the device puts together what it has got and reacts as
soon as that is a frame. What it sends is cut into packets and queued on
EP2 IN. How many bytes a transfer takes and how a frame is cut is left to a
`Transport`, which chooses anew each time.

A whole frame that is offered reaches the device, however it is taken
(`Link.accepts`), and what is queued is delivered (`Link.delivers`).

Key definitions: `React`, `Transport`, `Link`, `Link.get`, `Link.host`.
Key theorems: `Link.get_frame`, `Link.accepts`, `Link.delivers`.
-/
import UsbMux.Pending
import UsbMux.Overflow

namespace UsbMux

variable {δ : Type}

/-- What a device sends for a frame, given by its header and its bytes. -/
abbrev React (δ : Type) := Header → Bytes → δ → List Frame × δ

/-- How bytes travel: how many of them transfer `k` takes besides the first,
and how a frame is cut when it is number `k`. -/
structure Transport where
  pace : ℕ → ℕ
  cut : ℕ → Frame → CutFrame
  cut_toFrame : ∀ k f, (cut k f).toFrame = f

/-- Every byte in a transfer of its own. -/
def Transport.bytewise : Transport where
  pace _ := 0
  cut _ f := f.bytewise
  cut_toFrame _ _ := rfl

/-- The frames, cut from number `k` on. -/
def Transport.pack (W : Transport) : ℕ → List Frame → List CutFrame
  | _, [] => []
  | k, f :: fs => W.cut k f :: W.pack (k + 1) fs

theorem Transport.pack_toFrame (W : Transport) : ∀ (k : ℕ) (fs : List Frame), (W.pack k fs).map CutFrame.toFrame = fs
  | _, [] => rfl
  | k, f :: fs => by rw [pack, List.map_cons, W.cut_toFrame, W.pack_toFrame]

/-- A link: the bytes the device has got that are no frame yet, what is
queued on EP2 IN, a count of transfers and frames, and the device. -/
structure Link (δ : Type) where
  got : Bytes
  inq : List InEvent
  count : ℕ
  device : δ

/-- The device sends frames. -/
def Link.send (W : Transport) (fs : List Frame) (s : Link δ) : Link δ :=
  { s with inq := s.inq ++ (W.pack s.count fs).flatMap CutFrame.events, count := s.count + fs.length }

/-- The device gets bytes, and reacts if they complete a frame. -/
def Link.get (W : Transport) (react : React δ) (b : Bytes) (s : Link δ) : Link δ :=
  let s := { s with got := s.got ++ b, count := s.count + 1 }
  match decodeHeader s.got s.got.length with
  | .error _ => s
  | .ok h =>
    if s.got.length < h.totalLen.toNat then s
    else
      let (fs, d) := react h (s.got.take h.totalLen.toNat) s.device
      Link.send W fs { s with got := s.got.drop h.totalLen.toNat, device := d }

/-- The host of a link. Its EP2 IN is that of a pipe. -/
def Link.host (stack : Stack) (W : Transport) (react : React δ) : Host (Link δ) where
  bulkIn t n s :=
    let (x, p) := (Pipe.host stack silent).bulkIn t n ⟨s.inq, ()⟩
    (x, { s with inq := p.inq })
  bulkOut _ chunk s :=
    let n := min (W.pace s.count + 1) chunk.length
    (⟨.success, n⟩, s.get W react (chunk.take n))
  interruptIn _ _ s := (⟨.timeout, []⟩, s)
  stack _ n := stack.bytes n
  bulkIn_le t n s := (Pipe.host stack silent).bulkIn_le t n ⟨s.inq, ()⟩
  bulkOut_le _ _ _ := Nat.min_le_right _ _
  interruptIn_le _ _ _ := Nat.zero_le _
  length_stack _ n := stack.length_bytes n

variable (stack : Stack) (W : Transport) (react : React δ)

/-! ### Frames that go out -/

/-- Bytes of a frame that do not complete it are kept. -/
theorem Link.get_front {b : Bytes} {s : Link δ} {f : Frame} (hpre : (s.got ++ b) <+: f.bytes)
    (hlt : (s.got ++ b).length < f.bytes.length) :
    s.get W react b = { s with got := s.got ++ b, count := s.count + 1 } := by
  unfold Link.get
  dsimp only
  by_cases h24 : (s.got ++ b).length < 24
  · have hshort : decodeHeader (s.got ++ b) (s.got ++ b).length = .error .errProto := if_pos h24
    rw [hshort]
  · rw [Frame.decodes_front hpre (Nat.le_of_not_lt h24)]
    exact if_pos (f.length_eq ▸ hlt)

/-- The bytes that complete a frame make the device react to it. -/
theorem Link.get_frame {b : Bytes} {s : Link δ} {f : Frame} (hall : s.got ++ b = f.bytes) :
    let r := react f.header f.bytes s.device
    s.get W react b = Link.send W r.1 ⟨[], s.inq, s.count + 1, r.2⟩ := by
  intro r
  unfold Link.get
  dsimp only
  rw [hall, f.decodes]
  dsimp only
  rw [if_neg (by rw [f.length_eq]; exact Nat.lt_irrefl _), ← f.length_eq, List.take_length, List.drop_length]

/-- **A frame that is offered reaches the device**, in as many transfers as
it takes. -/
theorem Link.accepts (t : ℕ) {f : Frame} {rest : Bytes} {s : Link δ} (hall : s.got ++ rest = f.bytes)
    (hne : rest ≠ []) :
    let r := react f.header f.bytes s.device
    ∃ k, Accepts (Link.host stack W react) t s rest (Link.send W r.1 ⟨[], s.inq, k, r.2⟩) := by
  intro r
  have hpos := List.length_pos_iff.mpr hne
  set n := min (W.pace s.count + 1) rest.length with hn
  have hn0 : 0 < n := by omega
  have hx : (Link.host stack W react).bulkOut t rest s = (⟨.success, n⟩, s.get W react (rest.take n)) := rfl
  by_cases hlast : rest.length ≤ n
  · -- the last transfer of the frame
    have htake : rest.take n = rest := List.take_of_length_le hlast
    rw [htake, Link.get_frame W react hall] at hx
    refine ⟨s.count + 1, .take hn0 hx ?_⟩
    rw [List.drop_eq_nil_of_le hlast]
    exact .done _
  · have hsplit : (s.got ++ rest.take n) ++ rest.drop n = f.bytes := by
      rw [List.append_assoc, List.take_append_drop, hall]
    have hlen : (s.got ++ rest.take n).length + (rest.drop n).length = f.bytes.length := by
      rw [← List.length_append, hsplit]
    rw [List.length_drop] at hlen
    rw [Link.get_front W react ⟨_, hsplit⟩ (by omega)] at hx
    have hmore : rest.drop n ≠ [] := by
      apply List.length_pos_iff.mp
      rw [List.length_drop]
      omega
    obtain ⟨k, hrest⟩ := Link.accepts t (s := { s with got := s.got ++ rest.take n, count := s.count + 1 }) hsplit hmore
    exact ⟨k, .take hn0 hx hrest⟩
termination_by rest.length
decreasing_by
  rw [List.length_drop]
  omega

/-! ### Frames that come in -/

/-- What is queued is delivered. -/
theorem Link.delivers (t : ℕ) (s : Link δ) (rest : List InEvent) : ∀ q : List InEvent,
    Delivers (Link.host stack W react) t { s with inq := q ++ rest } q { s with inq := rest }
  | [] => rfl
  | .packet p :: q => by
    refine ⟨{ s with inq := q ++ rest }, fun n hn => ?_, Link.delivers t s rest q⟩
    have hx := Pipe.bulkIn_packet (t := t) stack silent hn (q ++ rest) ()
    simp only [Link.host, List.cons_append, hx]
  | .timeout :: q => ⟨{ s with inq := q ++ rest }, fun _ => rfl, Link.delivers t s rest q⟩

/-- With nothing queued a transfer times out. -/
theorem Link.bulkIn_empty {s : Link δ} (hs : s.inq = []) (t n : ℕ) :
    (Link.host stack W react).bulkIn t n s = (⟨.timeout, []⟩, s) := by
  obtain ⟨got, inq, count, d⟩ := s
  obtain rfl : inq = [] := hs
  rfl

end UsbMux
