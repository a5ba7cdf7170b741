/-
# The rounds of the read loop

The loop of `readFrame` as a step relation, for statements about the states
it goes through. `Round` is a round that lets the loop go on: it does not
change what the loop comes to (`rounds_resume`), and every loop comes to a
state with no further round (`exists_last`), where it leaves in one of the
ways of `last_round`.

The loop asks for what is left of its capacity after it has narrowed that to
an `int`. `room` is what the narrowing leaves of a capacity, all of it below
2^31, and no round goes beyond it (`Rounded.le_room`).

Key definitions: `room`, `resume`, `LoopState`, `Round`, `Rounded`.
Key theorems: `resume_round`, `rounds_resume`, `exists_last`, `last_round`,
`rounds_rounded`.
-/
import UsbMux.Reader
import Mathlib.Logic.Relation

namespace UsbMux

open Buffer

variable {σ : Type}

/-! ### What the narrowing leaves -/

/-- What `(int)` leaves of a capacity, nothing if it comes out negative. -/
@[irreducible] def room (cap : ℕ) : ℕ := (asInt cap).toNat

theorem room_le (cap : ℕ) : room cap ≤ cap := by
  have h := asInt_le cap
  unfold room
  omega

theorem room_of_lt {cap : ℕ} (h : cap < 2 ^ 31) : room cap = cap := by
  unfold room
  rw [asInt_of_lt h]
  exact Int.toNat_natCast cap

/-- What is left of the capacity narrows to what is left of its room. -/
theorem toNat_asInt_sizeSub {cap offset : ℕ} (hcap : cap < 2 ^ 64) (ho : offset ≤ room cap) :
    (asInt (sizeSub cap offset)).toNat = room cap - offset := by
  rw [sizeSub_of_le hcap (ho.trans (room_le cap))]
  unfold room asInt Int.bmod at *
  simp only [Nat.cast_pow, Nat.cast_ofNat] at *
  split_ifs at * <;> omega

theorem toNat_clampToPacket (capacity : ℤ) : (clampToPacket capacity).toNat = min 64 capacity.toNat := by
  unfold clampToPacket
  simp only [EP_PACKET_SIZE]
  split <;> omega

/-! ### A round -/

variable (host : Host σ) (dev : Device)

/-- The read loop with the bytes `R` received. -/
def resume (cap : ℕ) (buf R : Bytes) (targetLen : ℕ) (s : σ) : FrameRead σ :=
  readLoop host dev cap R.length targetLen (R ++ buf.drop R.length) s

theorem readFrame_eq_resume {cap : ℕ} (hcap : 24 ≤ cap) (buf : Bytes) (frameLen : ℕ) (s : σ) :
    readFrame host dev buf cap frameLen s = resume host dev cap buf [] 24 s := by
  unfold readFrame
  rw [if_neg (by simp only [HEADER_LEN]; omega)]
  rfl

variable {host dev}

theorem resume_done {cap : ℕ} {buf R : Bytes} {targetLen : ℕ} {s : σ} (h : targetLen ≤ R.length) :
    resume host dev cap buf R targetLen s = ⟨.ok, R ++ buf.drop R.length, targetLen, s⟩ := by
  unfold resume readLoop
  rw [if_neg (by omega)]

theorem resume_narrowed {cap : ℕ} {buf R : Bytes} {targetLen : ℕ} {s : σ} (hlt : R.length < targetLen)
    (hc : asInt (sizeSub cap R.length) ≤ 0) :
    resume host dev cap buf R targetLen s = ⟨.errOverflow, R ++ buf.drop R.length, 0, s⟩ := by
  unfold resume readLoop
  rw [if_pos hlt]
  exact if_pos hc

/-- **A round of the loop.** What its transfer brings goes behind what is
there; if that completes the header, the header is decoded. -/
theorem resume_round {cap : ℕ} (buf : Bytes) {R : Bytes} {targetLen : ℕ} {s s₁ : σ} {x : InXfer}
    (hlt : R.length < targetLen) (hc : 0 < asInt (sizeSub cap R.length))
    (hx : host.bulkIn dev.timeoutMs (clampToPacket (asInt (sizeSub cap R.length))).toNat s = (x, s₁)) :
    resume host dev cap buf R targetLen s =
      if x.ret ≠ .success then ⟨mapLibusbError x.ret, (R ++ x.data) ++ buf.drop (R ++ x.data).length, 0, s₁⟩
      else if x.data.length = 0 then ⟨.errIo, (R ++ x.data) ++ buf.drop (R ++ x.data).length, 0, s₁⟩
      else if targetLen = 24 ∧ 24 ≤ (R ++ x.data).length then
        match decodeHeader (R ++ x.data) (R ++ x.data).length with
        | .error ret => ⟨ret, (R ++ x.data) ++ buf.drop (R ++ x.data).length, 0, s₁⟩
        | .ok h =>
          if h.totalLen.toNat > cap then
            ⟨.errOverflow, (R ++ x.data) ++ buf.drop (R ++ x.data).length, 0, s₁⟩
          else resume host dev cap buf (R ++ x.data) h.totalLen.toNat s₁
      else resume host dev cap buf (R ++ x.data) targetLen s₁ := by
  have hframe : writeAt (R ++ buf.drop R.length) R.length x.data =
      (R ++ x.data) ++ buf.drop (R ++ x.data).length := by
    rw [writeAt_append, List.drop_drop, List.length_append]
  have hlen : R.length + x.data.length = (R ++ x.data).length := List.length_append.symm
  rw [resume, readLoop_round hlt (Int.not_le.mpr hc) hx, hframe, hlen]
  by_cases h24 : targetLen = 24 ∧ 24 ≤ (R ++ x.data).length
  · have hdec : decodeHeader ((R ++ x.data) ++ buf.drop (R ++ x.data).length) (R ++ x.data).length =
        decodeHeader (R ++ x.data) (R ++ x.data).length :=
      (decodeHeader_front (List.prefix_append ..) h24.2 h24.2 h24.2).symm
    rw [if_pos h24, if_pos (show targetLen = HEADER_LEN ∧ (R ++ x.data).length ≥ HEADER_LEN from h24), hdec]
    rfl
  · rw [if_neg h24, if_neg (show ¬(targetLen = HEADER_LEN ∧ (R ++ x.data).length ≥ HEADER_LEN) from h24)]
    rfl

/-! ### Rounds in a row -/

/-- Where the loop is: what it has received, the length it wants, and the
host. -/
structure LoopState (σ : Type) where
  received : Bytes
  targetLen : ℕ
  state : σ

/-- The loop before its first round. -/
def LoopState.start (s : σ) : LoopState σ := ⟨[], 24, s⟩

/-- What the loop wants when it has received `R`: the length its header
announces, from the round in which that is complete. -/
def NextTarget (cap targetLen : ℕ) (R : Bytes) (targetLen' : ℕ) : Prop :=
  if targetLen = 24 ∧ 24 ≤ R.length then
    ∃ h, decodeHeader R R.length = .ok h ∧ h.totalLen.toNat ≤ cap ∧ targetLen' = h.totalLen.toNat
  else targetLen' = targetLen

/-- A round that lets the loop go on. -/
structure Round (host : Host σ) (dev : Device) (cap : ℕ) (a b : LoopState σ) : Prop where
  wants : a.received.length < a.targetLen
  narrows : 0 < asInt (sizeSub cap a.received.length)
  transfer : ∃ data, data ≠ [] ∧ b.received = a.received ++ data ∧
    host.bulkIn dev.timeoutMs (clampToPacket (asInt (sizeSub cap a.received.length))).toNat a.state =
      (⟨.success, data⟩, b.state)
  target : NextTarget cap a.targetLen b.received b.targetLen

/-- A round does not change what the loop comes to. -/
theorem Round.resume_eq {cap : ℕ} (buf : Bytes) {a b : LoopState σ} (h : Round host dev cap a b) :
    resume host dev cap buf a.received a.targetLen a.state =
      resume host dev cap buf b.received b.targetLen b.state := by
  obtain ⟨data, hdata, hb, hx⟩ := h.transfer
  have htarget := h.target
  unfold NextTarget at htarget
  rw [resume_round buf h.wants h.narrows hx]
  dsimp only
  rw [← hb, if_neg (by simp), if_neg (mt List.length_eq_zero_iff.mp hdata)]
  by_cases h24 : a.targetLen = 24 ∧ 24 ≤ b.received.length
  · rw [if_pos h24] at htarget ⊢
    obtain ⟨header, hdec, hle, ht⟩ := htarget
    rw [hdec, ht]
    exact if_neg (Nat.not_lt.mpr hle)
  · rw [if_neg h24] at htarget ⊢
    rw [htarget]

/-- Nor does any number of them. -/
theorem rounds_resume {cap : ℕ} (buf : Bytes) {a b : LoopState σ}
    (h : Relation.ReflTransGen (Round host dev cap) a b) :
    resume host dev cap buf a.received a.targetLen a.state =
      resume host dev cap buf b.received b.targetLen b.state := by
  induction h with
  | refl => rfl
  | tail _ hround ih => exact ih.trans (hround.resume_eq buf)

theorem readFrame_of_rounds {cap : ℕ} (hcap : 24 ≤ cap) (buf : Bytes) (frameLen : ℕ) {s : σ} {b : LoopState σ}
    (h : Relation.ReflTransGen (Round host dev cap) (LoopState.start s) b) :
    readFrame host dev buf cap frameLen s = resume host dev cap buf b.received b.targetLen b.state :=
  (readFrame_eq_resume host dev hcap buf frameLen s).trans (rounds_resume buf h)

/-- A round takes bytes, and no target is set above the capacity. -/
theorem Round.decreases {cap : ℕ} {a b : LoopState σ} (h : Round host dev cap a b) :
    max b.targetLen cap - b.received.length < max a.targetLen cap - a.received.length := by
  obtain ⟨data, hdata, hb, -⟩ := h.transfer
  have hpos := List.length_pos_iff.mpr hdata
  have hlen : b.received.length = a.received.length + data.length := by rw [hb, List.length_append]
  have hwants := h.wants
  have htarget := h.target
  unfold NextTarget at htarget
  split_ifs at htarget
  · obtain ⟨header, -, hle, ht⟩ := htarget
    omega
  · omega

/-- **The loop stops.** After some rounds there is no other. -/
theorem exists_last (host : Host σ) (dev : Device) (cap : ℕ) (a : LoopState σ) :
    ∃ b, Relation.ReflTransGen (Round host dev cap) a b ∧ ∀ c, ¬Round host dev cap b c := by
  induction hn : max a.targetLen cap - a.received.length using Nat.strong_induction_on generalizing a with
  | _ n ih =>
    by_cases hlast : ∀ c, ¬Round host dev cap a c
    · exact ⟨a, .refl, hlast⟩
    · obtain ⟨b, hab⟩ := not_forall_not.mp hlast
      obtain ⟨c, hbc, hc⟩ := ih _ (hn ▸ hab.decreases) b rfl
      exact ⟨c, .head hab hbc, hc⟩

/-- The header at the front of `R` is refused for the length it announces. -/
def Refused (cap : ℕ) (R : Bytes) : Prop :=
  24 ≤ R.length ∧ (decodeHeader R R.length = .error .errOverflow ∨
    ∃ h, decodeHeader R R.length = .ok h ∧ cap < h.totalLen.toNat)

/-- A last round that made its transfer failed over it or over the header it
completed. -/
theorem last_transfer {cap : ℕ} (buf : Bytes) {b : LoopState σ} (hlast : ∀ c, ¬Round host dev cap b c)
    (hlt : b.received.length < b.targetLen) (hc : 0 < asInt (sizeSub cap b.received.length)) :
    let r := resume host dev cap buf b.received b.targetLen b.state
    r.ret ≠ .ok ∧ ∃ n x, host.bulkIn dev.timeoutMs n b.state = (x, r.state) ∧
      (r.ret = .errOverflow → Refused cap (b.received ++ x.data)) := by
  intro r
  obtain ⟨x, s₁, hx⟩ : ∃ x s₁, host.bulkIn dev.timeoutMs
    (clampToPacket (asInt (sizeSub cap b.received.length))).toNat b.state = (x, s₁) := ⟨_, _, rfl⟩
  have hr : r = _ := resume_round buf hlt hc hx
  by_cases hret : x.ret ≠ .success
  · rw [hr, if_pos hret]
    exact ⟨mapLibusbError_ne_ok _, _, x, hx, fun h => absurd h (mapLibusbError_ne_errOverflow _)⟩
  rw [if_neg hret] at hr
  by_cases hdata : x.data.length = 0
  · rw [hr, if_pos hdata]
    exact ⟨by simp, _, x, hx, by simp⟩
  rw [if_neg hdata] at hr
  -- with data, the round is the last because of the header it completes
  have hstops : ∀ targetLen', ¬NextTarget cap b.targetLen (b.received ++ x.data) targetLen' := by
    intro targetLen' htarget
    have hxfer : x = ⟨.success, x.data⟩ := by rw [← not_not.mp hret]
    exact hlast ⟨b.received ++ x.data, targetLen', s₁⟩
      ⟨hlt, hc, ⟨x.data, mt List.length_eq_zero_iff.mpr hdata, rfl, hxfer ▸ hx⟩, htarget⟩
  unfold NextTarget at hstops
  by_cases h24 : b.targetLen = 24 ∧ 24 ≤ (b.received ++ x.data).length
  · simp only [if_pos h24] at hstops hr
    rcases hdec : decodeHeader (b.received ++ x.data) (b.received ++ x.data).length with ret | header
    · rw [hdec] at hr
      rw [hr]
      refine ⟨decodeHeader_error_ne_ok hdec, _, x, hx, fun h => ⟨h24.2, .inl ?_⟩⟩
      exact hdec.trans (congrArg Except.error h)
    · have hbig : cap < header.totalLen.toNat := by
        by_contra hle
        exact hstops _ ⟨header, hdec, Nat.not_lt.mp hle, rfl⟩
      rw [hdec] at hr
      rw [hr.trans (if_pos hbig)]
      exact ⟨by simp, _, x, hx, fun _ => ⟨h24.2, .inr ⟨header, hdec, hbig⟩⟩⟩
  · simp only [if_neg h24] at hstops
    exact absurd rfl (hstops b.targetLen)

/-- **The ways out of the loop**: it has what it wants, the capacity narrows
to nothing, or the last transfer fails the call. -/
theorem last_round {cap : ℕ} (buf : Bytes) {b : LoopState σ} (hlast : ∀ c, ¬Round host dev cap b c) :
    let r := resume host dev cap buf b.received b.targetLen b.state
    (r.ret = .ok ∧ b.targetLen ≤ b.received.length ∧ r.frameLen = b.targetLen) ∨
      (r.ret = .errOverflow ∧ b.received.length < b.targetLen ∧ asInt (sizeSub cap b.received.length) ≤ 0 ∧
        r.state = b.state) ∨
      (r.ret ≠ .ok ∧ ∃ n x, host.bulkIn dev.timeoutMs n b.state = (x, r.state) ∧
        (r.ret = .errOverflow → Refused cap (b.received ++ x.data))) := by
  intro r
  by_cases hlt : b.received.length < b.targetLen
  · by_cases hc : asInt (sizeSub cap b.received.length) ≤ 0
    · have hr : r = _ := resume_narrowed hlt hc
      rw [hr]
      exact .inr (.inl ⟨rfl, hlt, hc, rfl⟩)
    · exact .inr (.inr (last_transfer buf hlast hlt (Int.not_le.mp hc)))
  · have hr : r = _ := resume_done (Nat.not_lt.mp hlt)
    rw [hr]
    exact .inl ⟨rfl, Nat.not_lt.mp hlt, rfl⟩

/-! ### What the rounds keep -/

/-- The loop along its rounds: what it has received fits the room, and what it
wants is 24 until 24 bytes are there, the length they announce from then on,
and fits the capacity. -/
structure Rounded (cap : ℕ) (a : LoopState σ) : Prop where
  le_room : a.received.length ≤ room cap
  le_cap : a.targetLen ≤ cap
  target : a.received.length < 24 ∧ a.targetLen = 24 ∨
    24 ≤ a.received.length ∧ ∃ h, decodeHeader a.received a.received.length = .ok h ∧ a.targetLen = h.totalLen.toNat

theorem Rounded.start {cap : ℕ} (hcap : 24 ≤ cap) (s : σ) : Rounded cap (LoopState.start s) :=
  ⟨Nat.zero_le _, hcap, .inl ⟨Nat.zero_lt_succ _, rfl⟩⟩

/-- The exit the narrowing opens is where the room ends. -/
theorem Rounded.narrows_iff {cap : ℕ} {a : LoopState σ} (hcap : cap < 2 ^ 64) (h : Rounded cap a) :
    asInt (sizeSub cap a.received.length) ≤ 0 ↔ room cap ≤ a.received.length := by
  have hrest := toNat_asInt_sizeSub hcap h.le_room
  omega

theorem Rounded.targetLen_le {cap : ℕ} {a : LoopState σ} (h : Rounded cap a) : a.targetLen ≤ 512 := by
  rcases h.target with ⟨-, ht⟩ | ⟨h24, header, hdec, ht⟩
  · omega
  · exact ht ▸ ((decodeHeader_eq_ok h24).mp hdec).2.2.totalLen_le

/-- A round keeps to the room and to the target the header sets. -/
theorem Round.rounded {cap : ℕ} {a b : LoopState σ} (hcap : cap < 2 ^ 64) (h : Round host dev cap a b)
    (ha : Rounded cap a) : Rounded cap b := by
  obtain ⟨data, -, hb, hx⟩ := h.transfer
  have htarget := h.target
  unfold NextTarget at htarget
  refine ⟨?_, ?_, ?_⟩
  · have hgot : data.length ≤ min 64 (room cap - a.received.length) := by
      rw [← toNat_asInt_sizeSub hcap ha.le_room, ← toNat_clampToPacket]
      exact host.length_le_of_bulkIn hx
    have hle := ha.le_room
    calc b.received.length = a.received.length + data.length := by rw [hb, List.length_append]
      _ ≤ a.received.length + (room cap - a.received.length) :=
        Nat.add_le_add_left (hgot.trans (min_le_right _ _)) _
      _ = room cap := Nat.add_sub_of_le hle
  · split_ifs at htarget
    · obtain ⟨header, -, hle, ht⟩ := htarget
      exact ht ▸ hle
    · exact htarget ▸ ha.le_cap
  · by_cases h24 : a.targetLen = 24 ∧ 24 ≤ b.received.length
    · rw [if_pos h24] at htarget
      obtain ⟨header, hdec, -, ht⟩ := htarget
      exact .inr ⟨h24.2, header, hdec, ht⟩
    · rw [if_neg h24] at htarget
      rw [htarget, hb]
      exact target_append (hb ▸ h24) ha.target

theorem rounds_rounded {cap : ℕ} {a b : LoopState σ} (hcap : cap < 2 ^ 64)
    (h : Relation.ReflTransGen (Round host dev cap) a b) (ha : Rounded cap a) : Rounded cap b := by
  induction h with
  | refl => exact ha
  | tail _ hround ih => exact hround.rounded hcap ih

/-! ### The log of the rounds -/

theorem logged_bulkIn {t n : ℕ} {s s₁ : σ} {x : InXfer} (h : host.bulkIn t n s = (x, s₁)) (log : List Event) :
    host.logged.bulkIn t n (s, log) = (x, s₁, log ++ [.bulkIn n x]) :=
  congrArg (fun r : InXfer × σ => (r.1, r.2, log ++ [.bulkIn n r.1])) h

/-- The log keeps what a transfer brought. -/
theorem received_logged {t n : ℕ} {s s₁ : σ × List Event} {x : InXfer} (h : host.logged.bulkIn t n s = (x, s₁)) :
    received s₁.2 = received s.2 ++ x.data := by
  obtain ⟨rfl, rfl⟩ := Prod.mk.inj h
  rw [received_append]
  exact congrArg (received s.2 ++ ·) (List.append_nil _)

/-- What the loop has received is what its log says. -/
theorem rounds_log {cap : ℕ} {a b : LoopState (σ × List Event)}
    (h : Relation.ReflTransGen (Round host.logged dev cap) a b) (ha : received a.state.2 = a.received) :
    received b.state.2 = b.received := by
  induction h with
  | refl => exact ha
  | tail _ hround ih =>
    obtain ⟨data, -, hb, hx⟩ := hround.transfer
    rw [received_logged hx, ih, hb]

/-- The host goes through the same rounds without the log. -/
theorem rounds_of_logged {cap : ℕ} {a b : LoopState (σ × List Event)}
    (h : Relation.ReflTransGen (Round host.logged dev cap) a b) :
    Relation.ReflTransGen (Round host dev cap) ⟨a.received, a.targetLen, a.state.1⟩
      ⟨b.received, b.targetLen, b.state.1⟩ := by
  refine h.lift (fun c : LoopState (σ × List Event) => (⟨c.received, c.targetLen, c.state.1⟩ : LoopState σ)) ?_
  intro c d hround
  obtain ⟨data, hdata, hd, hx⟩ := hround.transfer
  obtain ⟨hret, hstate⟩ := Prod.mk.inj hx
  exact ⟨hround.wants, hround.narrows, ⟨data, hdata, hd, Prod.ext hret (congrArg Prod.fst hstate)⟩, hround.target⟩

/-- And with it. -/
theorem rounds_logged {cap : ℕ} {a b : LoopState σ} (h : Relation.ReflTransGen (Round host dev cap) a b)
    (log : List Event) : ∃ log', Relation.ReflTransGen (Round host.logged dev cap)
      ⟨a.received, a.targetLen, (a.state, log)⟩ ⟨b.received, b.targetLen, (b.state, log')⟩ := by
  induction h with
  | refl => exact ⟨log, .refl⟩
  | tail _ hround ih =>
    obtain ⟨log', hrounds⟩ := ih
    obtain ⟨data, hdata, hb, hx⟩ := hround.transfer
    have hlogged := logged_bulkIn hx log'
    exact ⟨_, hrounds.tail ⟨hround.wants, hround.narrows, ⟨data, hdata, hb, hlogged⟩, hround.target⟩⟩

end UsbMux
