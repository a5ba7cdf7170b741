/-
# EP2 IN as a queue of packets

What a host does with IN transfers when it has packets for them
(`Delivers`): each transfer gets the next packet if it fits the length asked
for, or times out where the queue says so. `Pipe.host` is a host that has
such a queue and a device behind it, which may queue packets when it gets
bytes on EP3 OUT; its queue is delivered as it stands (`Pipe.delivers`).
-/
import UsbMux.Libusb

namespace UsbMux

variable {σ : Type}

/-- What the next IN transfer meets: a packet, or no packet before the
timeout. -/
inductive InEvent
  | packet (p : Bytes)
  | timeout
  deriving DecidableEq, Repr

/-- The packets among the events. -/
def packetsOf : List InEvent → List Bytes
  | [] => []
  | .packet p :: q => p :: packetsOf q
  | .timeout :: q => packetsOf q

@[simp] theorem packetsOf_append : ∀ a b : List InEvent, packetsOf (a ++ b) = packetsOf a ++ packetsOf b
  | [], _ => rfl
  | .packet p :: a, b => congrArg (p :: ·) (packetsOf_append a b)
  | .timeout :: a, b => packetsOf_append a b

@[simp] theorem packetsOf_map : ∀ ps : List Bytes, packetsOf (ps.map .packet) = ps
  | [] => rfl
  | p :: ps => congrArg (p :: ·) (packetsOf_map ps)

/-- The number of bytes queued. -/
def backlog (q : List InEvent) : ℕ := (packetsOf q).flatten.length

/-- From `s` the host answers IN transfers with the events `q`, in order, and
is then in `s'`. A packet goes to a transfer that has room for it. -/
def Delivers (host : Host σ) (t : ℕ) : σ → List InEvent → σ → Prop
  | s, [], s' => s = s'
  | s, .packet p :: q, s' =>
    ∃ s₁, (∀ n, p.length ≤ n → host.bulkIn t n s = (⟨.success, p⟩, s₁)) ∧ Delivers host t s₁ q s'
  | s, .timeout :: q, s' =>
    ∃ s₁, (∀ n, host.bulkIn t n s = (⟨.timeout, []⟩, s₁)) ∧ Delivers host t s₁ q s'

theorem delivers_append {host : Host σ} {t : ℕ} : ∀ {a b : List InEvent} {s s' : σ},
    Delivers host t s (a ++ b) s' ↔ ∃ s₁, Delivers host t s a s₁ ∧ Delivers host t s₁ b s'
  | [], b, s, s' => by simp [Delivers]
  | .packet p :: a, b, s, s' => by
    simp only [List.cons_append, Delivers, delivers_append (a := a) (b := b)]
    exact ⟨fun ⟨s₁, h, s₂, ha, hb⟩ => ⟨s₂, ⟨s₁, h, ha⟩, hb⟩, fun ⟨s₂, ⟨s₁, h, ha⟩, hb⟩ => ⟨s₁, h, s₂, ha, hb⟩⟩
  | .timeout :: a, b, s, s' => by
    simp only [List.cons_append, Delivers, delivers_append (a := a) (b := b)]
    exact ⟨fun ⟨s₁, h, s₂, ha, hb⟩ => ⟨s₂, ⟨s₁, h, ha⟩, hb⟩, fun ⟨s₂, ⟨s₁, h, ha⟩, hb⟩ => ⟨s₁, h, s₂, ha, hb⟩⟩

/-- What the arrays on the stack hold before they are written to. -/
structure Stack where
  bytes : ℕ → Bytes
  length_bytes : ∀ n, (bytes n).length = n

def Stack.zero : Stack := ⟨fun n => List.replicate n 0, fun _ => List.length_replicate⟩

/-- A queue on EP2 IN and a device. -/
structure Pipe (δ : Type) where
  inq : List InEvent
  device : δ
  deriving DecidableEq, Repr

variable {δ : Type}

/-- The host of a pipe: writes are accepted whole and `react` says what the
device queues for them. An empty queue times out; a packet larger than the
length asked for is lost in an overflow. -/
def Pipe.host (stack : Stack) (react : Bytes → δ → List InEvent × δ) : Host (Pipe δ) where
  bulkIn _ n s :=
    match s.inq with
    | [] => (⟨.timeout, []⟩, s)
    | .timeout :: q => (⟨.timeout, []⟩, { s with inq := q })
    | .packet p :: q =>
      if p.length ≤ n then (⟨.success, p⟩, { s with inq := q }) else (⟨.overflow, []⟩, { s with inq := q })
  bulkOut _ chunk s :=
    let (q, d) := react chunk s.device
    (⟨.success, chunk.length⟩, ⟨s.inq ++ q, d⟩)
  interruptIn _ _ s := (⟨.timeout, []⟩, s)
  stack _ n := stack.bytes n
  bulkIn_le _ n s := by
    split
    · simp
    · simp
    · split <;> simp [*]
  bulkOut_le _ _ _ := by simp
  interruptIn_le _ _ _ := by simp
  length_stack _ n := stack.length_bytes n

theorem Pipe.bulkIn_packet (stack : Stack) (react : Bytes → δ → List InEvent × δ) {t n : ℕ} {p : Bytes}
    (hn : p.length ≤ n) (q : List InEvent) (d : δ) :
    (Pipe.host stack react).bulkIn t n ⟨.packet p :: q, d⟩ = (⟨.success, p⟩, ⟨q, d⟩) := if_pos hn

theorem Pipe.delivers (stack : Stack) (react : Bytes → δ → List InEvent × δ) (t : ℕ) (d : δ) (rest : List InEvent) :
    ∀ q : List InEvent, Delivers (Pipe.host stack react) t ⟨q ++ rest, d⟩ q ⟨rest, d⟩
  | [] => rfl
  | .packet _ :: q =>
    ⟨⟨q ++ rest, d⟩, fun _ hn => Pipe.bulkIn_packet stack react hn _ d, Pipe.delivers stack react t d rest q⟩
  | .timeout :: q => ⟨⟨q ++ rest, d⟩, fun _ => rfl, Pipe.delivers stack react t d rest q⟩

theorem Pipe.delivers_all (stack : Stack) (react : Bytes → δ → List InEvent × δ) (t : ℕ) (d : δ)
    (q : List InEvent) : Delivers (Pipe.host stack react) t ⟨q, d⟩ q ⟨[], d⟩ := by
  simpa using Pipe.delivers stack react t d [] q

/-- A device that answers nothing: only what is queued comes in. -/
def silent : Bytes → Unit → List InEvent × Unit := fun _ d => ([], d)

variable {stack : Stack} {t : ℕ}

/-- An IN transfer takes what it brings off the front of the queue: a packet
or nothing. -/
theorem Pipe.bulkIn_cases {n : ℕ} {s s' : Pipe Unit} {x : InXfer}
    (h : (Pipe.host stack silent).bulkIn t n s = (x, s')) :
    s'.inq = s.inq.tail ∧ x.data.length + backlog s'.inq ≤ backlog s.inq := by
  obtain ⟨q, d⟩ := s
  rcases q with _ | ⟨p | _, q⟩
  · cases h
    exact ⟨rfl, by simp⟩
  · by_cases hp : p.length ≤ n
    · simp only [Pipe.host, if_pos hp] at h
      cases h
      exact ⟨rfl, by simp [backlog, packetsOf]⟩
    · simp only [Pipe.host, if_neg hp] at h
      cases h
      exact ⟨rfl, by simp [backlog, packetsOf]⟩
  · cases h
    exact ⟨rfl, by simp [backlog, packetsOf]⟩

/-- Nothing comes in that was not queued, and the queue is taken from the
front. -/
theorem Makes.pipe : ∀ {evs : List Event} {s s' : Pipe Unit}, Makes (Pipe.host stack silent) t s evs s' →
    s'.inq <:+ s.inq ∧ (received evs).length + backlog s'.inq ≤ backlog s.inq
  | [], s, s', h => by
    rw [show s = s' from h]
    exact ⟨List.suffix_rfl, by simp [received]⟩
  | .bulkIn n x :: evs, s, s', ⟨s₁, hx, h⟩ => by
    obtain ⟨htail, hle⟩ := Pipe.bulkIn_cases hx
    obtain ⟨hsuf, hle'⟩ := h.pipe
    refine ⟨hsuf.trans (htail ▸ List.tail_suffix _), ?_⟩
    simp only [received, List.length_append]
    omega
  | .bulkOut chunk x :: evs, s, s', ⟨s₁, hx, h⟩ => by
    have hrest := h.pipe
    cases hx
    simpa [silent, received] using hrest
  | .interruptIn n x :: evs, s, s', ⟨s₁, hx, h⟩ => by
    have hrest := h.pipe
    cases hx
    exact hrest

theorem backlog_suffix {a b : List InEvent} (h : a <:+ b) : backlog a ≤ backlog b := by
  obtain ⟨c, rfl⟩ := h
  simp [backlog]

end UsbMux
