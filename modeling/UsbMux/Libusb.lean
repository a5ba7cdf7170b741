/-
# What the driver runs on

The driver calls libusb for its transfers and lets the device choose what
comes back. A `Host σ` is one such surrounding: for every state `σ` of it,
what a transfer returns and the state it leaves, and what an array on the
stack holds before the program writes to it. Nothing is assumed of it but
that libusb reports no more bytes than it was asked for, so a statement
about every host is a statement about every sequence of outcomes.

`Host.logged` is the same host with a record of the transfers made, and
`Makes` says of a list of transfers that the host makes them in that order.
-/
import UsbMux.Proto

namespace UsbMux

/-- `enum libusb_error`. -/
inductive LibusbError
  | success | io | invalidParam | access | noDevice | notFound | busy | timeout | overflow | pipe
  | interrupted | noMem | notSupported | other
  deriving DecidableEq, Repr

/-- An IN transfer: the code libusb returns, and the `transferred` bytes it
stored at the buffer it was given. -/
structure InXfer where
  ret : LibusbError
  data : Bytes
  deriving DecidableEq, Repr

/-- An OUT transfer: the code libusb returns, and `transferred`. -/
structure OutXfer where
  ret : LibusbError
  transferred : ℕ
  deriving DecidableEq, Repr

/-- libusb and the stack, as the driver meets them. -/
structure Host (σ : Type) where
  /-- `libusb_bulk_transfer` on EP2 IN: timeout and length asked for. -/
  bulkIn : ℕ → ℕ → σ → InXfer × σ
  /-- `libusb_bulk_transfer` on EP3 OUT: timeout and bytes offered. -/
  bulkOut : ℕ → Bytes → σ → OutXfer × σ
  /-- `libusb_interrupt_transfer` on EP1 IN: timeout and length asked for. -/
  interruptIn : ℕ → ℕ → σ → InXfer × σ
  /-- What an array of so many bytes holds when a function declares it. -/
  stack : σ → ℕ → Bytes
  bulkIn_le : ∀ t n s, (bulkIn t n s).1.data.length ≤ n
  bulkOut_le : ∀ t chunk s, (bulkOut t chunk s).1.transferred ≤ chunk.length
  interruptIn_le : ∀ t n s, (interruptIn t n s).1.data.length ≤ n
  length_stack : ∀ s n, (stack s n).length = n

/-- A transfer that was made, with its outcome. -/
inductive Event
  | bulkIn (length : ℕ) (x : InXfer)
  | bulkOut (chunk : Bytes) (x : OutXfer)
  | interruptIn (length : ℕ) (x : InXfer)
  deriving DecidableEq, Repr

variable {σ : Type}

theorem Host.length_le_of_bulkIn (host : Host σ) {t n : ℕ} {s s' : σ} {x : InXfer} (h : host.bulkIn t n s = (x, s')) :
    x.data.length ≤ n := by
  have hle := host.bulkIn_le t n s
  rwa [h] at hle

/-- The host, writing down its transfers. -/
def Host.logged (host : Host σ) : Host (σ × List Event) where
  bulkIn t n s :=
    let (x, s') := host.bulkIn t n s.1
    (x, s', s.2 ++ [.bulkIn n x])
  bulkOut t chunk s :=
    let (x, s') := host.bulkOut t chunk s.1
    (x, s', s.2 ++ [.bulkOut chunk x])
  interruptIn t n s :=
    let (x, s') := host.interruptIn t n s.1
    (x, s', s.2 ++ [.interruptIn n x])
  stack s n := host.stack s.1 n
  bulkIn_le t n s := host.bulkIn_le t n s.1
  bulkOut_le t chunk s := host.bulkOut_le t chunk s.1
  interruptIn_le t n s := host.interruptIn_le t n s.1
  length_stack s n := host.length_stack s.1 n

/-- The bytes received on EP2 IN. -/
def received : List Event → Bytes
  | [] => []
  | .bulkIn _ x :: evs => x.data ++ received evs
  | .bulkOut _ _ :: evs => received evs
  | .interruptIn _ _ :: evs => received evs

@[simp] theorem received_append : ∀ a b : List Event, received (a ++ b) = received a ++ received b
  | [], _ => rfl
  | .bulkIn _ x :: a, b => by simp [received, received_append a b]
  | .bulkOut _ _ :: a, b => by simp [received, received_append a b]
  | .interruptIn _ _ :: a, b => by simp [received, received_append a b]

/-! ### The transfers of a call -/

/-- The chunks offered on EP3 OUT. -/
def offered : List Event → List Bytes
  | [] => []
  | .bulkIn _ _ :: evs => offered evs
  | .bulkOut chunk _ :: evs => chunk :: offered evs
  | .interruptIn _ _ :: evs => offered evs

@[simp] theorem offered_append : ∀ a b : List Event, offered (a ++ b) = offered a ++ offered b
  | [], _ => rfl
  | .bulkIn _ _ :: a, b => offered_append a b
  | .bulkOut chunk _ :: a, b => congrArg (chunk :: ·) (offered_append a b)
  | .interruptIn _ _ :: a, b => offered_append a b

/-- From `s` the host makes the transfers `evs`, one after the other, and
ends in `s'`. -/
def Makes (host : Host σ) (t : ℕ) : σ → List Event → σ → Prop
  | s, [], s' => s = s'
  | s, .bulkIn n x :: evs, s' => ∃ s₁, host.bulkIn t n s = (x, s₁) ∧ Makes host t s₁ evs s'
  | s, .bulkOut chunk x :: evs, s' => ∃ s₁, host.bulkOut t chunk s = (x, s₁) ∧ Makes host t s₁ evs s'
  | s, .interruptIn n x :: evs, s' => ∃ s₁, host.interruptIn t n s = (x, s₁) ∧ Makes host t s₁ evs s'

/-- The log of a logged host is what it made. -/
theorem Makes.log {host : Host σ} {t : ℕ} : ∀ {evs : List Event} {s s' : σ × List Event},
    Makes host.logged t s evs s' → s'.2 = s.2 ++ evs
  | [], s, _, h => by rw [← (show s = _ from h), List.append_nil]
  | .bulkIn n x :: evs, s, s', ⟨s₁, h, hs⟩ => by
    obtain ⟨rfl, rfl⟩ := Prod.mk.inj h
    simp [Makes.log hs]
  | .bulkOut chunk x :: evs, s, s', ⟨s₁, h, hs⟩ => by
    obtain ⟨rfl, rfl⟩ := Prod.mk.inj h
    simp [Makes.log hs]
  | .interruptIn n x :: evs, s, s', ⟨s₁, h, hs⟩ => by
    obtain ⟨rfl, rfl⟩ := Prod.mk.inj h
    simp [Makes.log hs]

theorem Makes.append {host : Host σ} {t : ℕ} : ∀ {a b : List Event} {s s₁ s' : σ},
    Makes host t s a s₁ → Makes host t s₁ b s' → Makes host t s (a ++ b) s'
  | [], _, _, _, _, h, hb => (show _ = _ from h) ▸ hb
  | .bulkIn _ _ :: _, _, _, _, _, ⟨s₂, h, ha⟩, hb => ⟨s₂, h, ha.append hb⟩
  | .bulkOut _ _ :: _, _, _, _, _, ⟨s₂, h, ha⟩, hb => ⟨s₂, h, ha.append hb⟩
  | .interruptIn _ _ :: _, _, _, _, _, ⟨s₂, h, ha⟩, hb => ⟨s₂, h, ha.append hb⟩

end UsbMux
