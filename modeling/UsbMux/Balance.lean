/-
# Opening and closing are balanced

What `ch32mux_open` acquires and what `ch32mux_close` gives back: a libusb
context, a handle, the kernel driver of the interface (held while it is
detached) and the claim of the interface. A device says in its own fields
what it holds (`Device.holds`), and that is what a close releases, in the
reverse order (`muxClose_released`). An open hands such a device out, or
closes it again before it returns (`muxOpen_spec`).

Several opens and closes share one bus, on which these resources are a
`Ledger`: the bus is at any time what the live devices hold on top of what it
was (`BusState.run_held`).

Key definitions: `Resource`, `acquired`, `released`, `Device.holds`, `Bus`,
`busLedger`, `BusState.run`.
Key theorems: `muxClose_released`, `muxOpen_spec`, `BusState.run_held`,
`open_close_balanced`.
-/
import UsbMux.Device
import UsbMux.Lib.Ledger
import Mathlib.Data.Multiset.AddSub

namespace UsbMux

/-! ### What a call acquires and releases -/

/-- What an open acquires. The kernel driver is held while it is detached. -/
inductive Resource
  | context (ctx : ℕ)
  | handle (handle : ℕ)
  | driver (handle : ℕ) (interface : ℤ)
  | claim (handle : ℕ) (interface : ℤ)
  deriving DecidableEq, Repr

/-- The place in the order of acquisition. -/
def Resource.rank : Resource → ℕ
  | context _ => 0
  | handle _ => 1
  | driver _ _ => 2
  | claim _ _ => 3

/-- What a call of an open acquires, if it succeeds. -/
def LibusbCall.acquires (host : OpenHost) : LibusbCall → Option Resource
  | init ctx => if host.init = .success then some (.context ctx) else none
  | openDevice _ _ _ => host.handle.map .handle
  | kernelDriverActive _ _ => none
  | detachKernelDriver h i => if host.detach = .success then some (.driver h i) else none
  | claimInterface h i => if host.claim = .success then some (.claim h i) else none
  | releaseInterface _ _ => none
  | attachKernelDriver _ _ => none
  | close _ => none
  | exit _ => none

/-- What a call releases; these calls are taken to succeed. -/
def LibusbCall.releases : LibusbCall → Option Resource
  | init _ => none
  | openDevice _ _ _ => none
  | kernelDriverActive _ _ => none
  | detachKernelDriver _ _ => none
  | claimInterface _ _ => none
  | releaseInterface h i => some (.claim h i)
  | attachKernelDriver h i => some (.driver h i)
  | close h => some (.handle h)
  | exit ctx => some (.context ctx)

def acquired (host : OpenHost) (calls : List LibusbCall) : List Resource := calls.filterMap (·.acquires host)

def released (calls : List LibusbCall) : List Resource := calls.filterMap LibusbCall.releases

theorem acquired_append (host : OpenHost) (a b : List LibusbCall) :
    acquired host (a ++ b) = acquired host a ++ acquired host b := List.filterMap_append

theorem released_append (a b : List LibusbCall) : released (a ++ b) = released a ++ released b :=
  List.filterMap_append

/-- What a device holds, by its fields, in the order of acquisition. -/
def Device.holds (device : Device) : List Resource :=
  (match device.ctx with
    | some c => [.context c]
    | none => []) ++
  (match device.handle with
    | some h => [.handle h] ++
      (if device.detachedKernelDriver then [.driver h device.interfaceNumber] else []) ++
      (if device.claimed then [.claim h device.interfaceNumber] else [])
    | none => [])

theorem Device.holds_pairwise (device : Device) : device.holds.Pairwise (·.rank < ·.rank) := by
  obtain ⟨ctx, handle, i, claimed, detached, t, seq⟩ := device
  cases ctx <;> cases handle <;> cases claimed <;> cases detached <;> simp [Device.holds, Resource.rank]

/-- **A close releases what the device holds**, last acquired first. -/
theorem muxClose_released (device : Device) : released (muxClose device) = device.holds.reverse := by
  obtain ⟨ctx, handle, i, claimed, detached, t, seq⟩ := device
  cases ctx <;> cases handle <;> cases claimed <;> cases detached <;> rfl

theorem muxClose_acquired (host : OpenHost) (device : Device) : acquired host (muxClose device) = [] := by
  obtain ⟨ctx, handle, i, claimed, detached, t, seq⟩ := device
  cases ctx <;> cases handle <;> cases claimed <;> cases detached <;> rfl

/-- The device as `calloc` leaves it. -/
def Device.blank : Device := ⟨none, none, 0, false, false, 0, 0⟩

/-- The device was made by an open with these options: its handle is the one
opened, and its driver was active and has been detached. -/
structure Device.MadeBy (host : OpenHost) (options : Option OpenOptions) (device : Device) : Prop where
  handle : ∀ h, device.handle = some h → host.handle = some h ∧
    device.interfaceNumber = (options.getD defaultOpenOptions).interfaceNumber
  detached : device.detachedKernelDriver = true → host.kernelDriverActive = 1 ∧ host.detach = .success

theorem Device.MadeBy.blank (host : OpenHost) (options : Option OpenOptions) :
    Device.blank.MadeBy host options where
  handle _ h := by cases h
  detached h := by cases h

/-! ### An open with a handle -/

section Handle

variable (host : OpenHost) (o : OpenOptions) (h : ℕ)

/-- The open finds a kernel driver that it has to detach. -/
def OpenHost.detaches : Bool := o.detachKernelDriver && host.kernelDriverActive == 1

/-- The device with its handle, and nothing done to its interface. -/
def Device.opened : Device := ⟨some host.ctx, some h, o.interfaceNumber, false, false, o.timeoutMs, 1⟩

/-- The calls of the open before it claims the interface. -/
def openCalls : List LibusbCall :=
  [.init host.ctx, .openDevice host.ctx o.vid o.pid] ++
    (if o.detachKernelDriver then [.kernelDriverActive h o.interfaceNumber] else []) ++
    (if host.detaches o then [.detachKernelDriver h o.interfaceNumber] else [])

variable {host o h}

theorem muxOpen_of_handle {options : Option OpenOptions} (ho : options.getD defaultOpenOptions = o)
    (hcalloc : host.calloc = true) (hinit : host.init = .success) (hhandle : host.handle = some h) :
    muxOpen host options =
      if host.detaches o && host.detach ≠ .success then
        (mapLibusbError host.detach, none, openCalls host o h ++ muxClose (.opened host o h))
      else if host.claim ≠ .success then
        (mapLibusbError host.claim, none, openCalls host o h ++ [.claimInterface h o.interfaceNumber] ++
          muxClose { Device.opened host o h with detachedKernelDriver := host.detaches o })
      else (.ok, some { Device.opened host o h with detachedKernelDriver := host.detaches o, claimed := true },
        openCalls host o h ++ [.claimInterface h o.interfaceNumber]) := by
  simp [muxOpen, hcalloc, hinit, hhandle, ho, Device.opened, openCalls, OpenHost.detaches]

theorem openCalls_released : released (openCalls host o h) = [] := by
  unfold openCalls
  split_ifs <;> rfl

/-- The context and the handle are acquired, and the driver if it is there and
lets itself be detached. -/
theorem openCalls_acquired (hinit : host.init = .success) (hhandle : host.handle = some h) :
    acquired host (openCalls host o h) = [.context host.ctx, .handle h] ++
      if host.detaches o = true ∧ host.detach = .success then [.driver h o.interfaceNumber] else [] := by
  have hfirst : acquired host [.init host.ctx, .openDevice host.ctx o.vid o.pid] = [.context host.ctx, .handle h] := by
    simp [acquired, LibusbCall.acquires, hinit, hhandle]
  have hquery :
      acquired host (if o.detachKernelDriver then [.kernelDriverActive h o.interfaceNumber] else []) = [] := by
    split_ifs <;> rfl
  unfold openCalls
  rw [acquired_append, acquired_append, hfirst, hquery, List.append_nil]
  by_cases hdetaches : host.detaches o = true
  · by_cases hdetach : host.detach = .success
    · simp [acquired, LibusbCall.acquires, hdetaches, hdetach]
    · simp [acquired, LibusbCall.acquires, hdetaches, hdetach]
  · simp [acquired, hdetaches]

theorem openCalls_holds (hinit : host.init = .success) (hhandle : host.handle = some h)
    (hdetach : host.detaches o = true → host.detach = .success) : acquired host (openCalls host o h) =
      { Device.opened host o h with detachedKernelDriver := host.detaches o }.holds := by
  rw [openCalls_acquired hinit hhandle]
  by_cases hdetaches : host.detaches o = true
  · rw [if_pos ⟨hdetaches, hdetach hdetaches⟩, hdetaches]
    rfl
  · rw [if_neg fun hand => hdetaches hand.1, Bool.eq_false_of_not_eq_true hdetaches]
    rfl

end Handle

/-- **What an open does.** Its calls acquire what some device holds, and
release nothing. It hands this device out, or it closes it. -/
theorem muxOpen_spec (host : OpenHost) (options : Option OpenOptions) :
    let r := muxOpen host options
    ∃ device calls, device.MadeBy host options ∧ acquired host calls = device.holds ∧ released calls = [] ∧
      (r.1 ≠ .ok ∧ r.2.1 = none ∧ r.2.2 = calls ++ muxClose device ∨
        r.1 = .ok ∧ r.2.1 = some device ∧ r.2.2 = calls) := by
  intro r
  set o := options.getD defaultOpenOptions with ho
  by_cases hcalloc : host.calloc = true
  swap
  · have hr : r = (.errNoMem, none, []) := by simp [r, muxOpen, hcalloc]
    refine ⟨.blank, [], .blank host options, rfl, rfl, .inl ?_⟩
    rw [hr]
    exact ⟨by simp, rfl, rfl⟩
  by_cases hinit : host.init = .success
  swap
  · have hr : r = (mapLibusbError host.init, none, [.init host.ctx]) := by simp [r, muxOpen, hcalloc, hinit]
    refine ⟨.blank, [.init host.ctx], .blank host options, ?_, rfl, .inl ?_⟩
    · simp [acquired, LibusbCall.acquires, hinit, Device.holds, Device.blank]
    · rw [hr]
      exact ⟨mapLibusbError_ne_ok _, rfl, rfl⟩
  rcases hhandle : host.handle with _ | h
  · set device : Device := { Device.blank with ctx := some host.ctx }
    have hr : r = (.errNotFound, none, [.init host.ctx, .openDevice host.ctx o.vid o.pid] ++ muxClose device) := by
      simp [r, muxOpen, hcalloc, hinit, hhandle, device, Device.blank, ← ho]
    refine ⟨device, [.init host.ctx, .openDevice host.ctx o.vid o.pid],
      ⟨fun _ hh => (by cases hh), fun h => by cases h⟩, ?_, rfl, .inl ?_⟩
    · simp [acquired, LibusbCall.acquires, hinit, hhandle, Device.holds, device, Device.blank]
    · rw [hr]
      exact ⟨by simp, rfl, rfl⟩
  have hr : r = _ := muxOpen_of_handle ho.symm hcalloc hinit hhandle
  by_cases hfail : host.detaches o && host.detach ≠ .success
  · rw [if_pos hfail] at hr
    refine ⟨.opened host o h, openCalls host o h, ⟨fun h' hh => ⟨hhandle.trans hh, rfl⟩, fun h => by cases h⟩, ?_,
      openCalls_released, .inl ?_⟩
    · simp only [Bool.and_eq_true, decide_eq_true_eq] at hfail
      rw [openCalls_acquired hinit hhandle, if_neg fun hand => hfail.2 hand.2]
      rfl
    · rw [hr]
      exact ⟨mapLibusbError_ne_ok _, rfl, rfl⟩
  rw [if_neg hfail] at hr
  -- there was no driver to detach, or it is detached now
  have hdetach : host.detaches o = true → host.detach = .success := by
    intro hdetaches
    simpa [hdetaches] using hfail
  have hmade : host.detaches o = true → host.kernelDriverActive = 1 ∧ host.detach = .success := by
    intro hdetaches
    exact ⟨beq_iff_eq.mp (Bool.and_eq_true_iff.mp hdetaches).2, hdetach hdetaches⟩
  have hholds := openCalls_holds hinit hhandle hdetach
  by_cases hclaim : host.claim = .success
  · rw [if_neg (not_not.mpr hclaim)] at hr
    refine ⟨{ Device.opened host o h with detachedKernelDriver := host.detaches o, claimed := true },
      openCalls host o h ++ [.claimInterface h o.interfaceNumber],
      ⟨fun h' hh => ⟨hhandle.trans hh, rfl⟩, hmade⟩, ?_, ?_, .inr ?_⟩
    · rw [acquired_append, hholds]
      simp [acquired, LibusbCall.acquires, hclaim, Device.holds, Device.opened]
    · rw [released_append, openCalls_released]
      rfl
    · rw [hr]
      exact ⟨rfl, rfl, rfl⟩
  · rw [if_pos hclaim] at hr
    refine ⟨{ Device.opened host o h with detachedKernelDriver := host.detaches o },
      openCalls host o h ++ [.claimInterface h o.interfaceNumber],
      ⟨fun h' hh => ⟨hhandle.trans hh, rfl⟩, hmade⟩, ?_, ?_, .inl ?_⟩
    · rw [acquired_append, hholds]
      simp [acquired, LibusbCall.acquires, hclaim]
    · rw [released_append, openCalls_released]
      rfl
    · rw [hr]
      exact ⟨mapLibusbError_ne_ok _, rfl, rfl⟩

/-! ### The bus -/

/-- What libusb and the system keep: the live contexts, the open handles, the
interfaces claimed, and whether a kernel driver is attached to an interface
of a device. -/
@[ext]
structure Bus where
  contexts : Multiset ℕ
  handles : Multiset ℕ
  claims : Multiset (ℕ × ℤ)
  attached : ℕ → ℤ → Bool

variable (phys : ℕ → ℕ)

/-- Acquires the resource; `phys` is the device a handle is open on. -/
def Bus.take (r : Resource) (bus : Bus) : Bus :=
  match r with
  | .context c => { bus with contexts := c ::ₘ bus.contexts }
  | .handle h => { bus with handles := h ::ₘ bus.handles }
  | .driver h i => { bus with attached := fun p j => bus.attached p j && !(p == phys h && j == i) }
  | .claim h i => { bus with claims := (h, i) ::ₘ bus.claims }

/-- Releases the resource. -/
def Bus.give (r : Resource) (bus : Bus) : Bus :=
  match r with
  | .context c => { bus with contexts := bus.contexts.erase c }
  | .handle h => { bus with handles := bus.handles.erase h }
  | .driver h i => { bus with attached := fun p j => bus.attached p j || (p == phys h && j == i) }
  | .claim h i => { bus with claims := bus.claims.erase (h, i) }

/-- Only a driver that is attached can be detached. -/
def Bus.Free (bus : Bus) : Resource → Prop
  | .driver h i => bus.attached (phys h) i = true
  | .context _ => True
  | .handle _ => True
  | .claim _ _ => True

theorem Bus.take_comm (r r' : Resource) (bus : Bus) :
    Bus.take phys r (Bus.take phys r' bus) = Bus.take phys r' (Bus.take phys r bus) := by
  cases r <;> cases r' <;> simp [Bus.take, Multiset.cons_swap, Bool.and_right_comm]

theorem Bus.give_take {r : Resource} {bus : Bus} (h : bus.Free phys r) :
    Bus.give phys r (Bus.take phys r bus) = bus := by
  cases r with
  | context c => simp [Bus.take, Bus.give]
  | handle h => simp [Bus.take, Bus.give]
  | driver h' i =>
    have hattached : bus.attached (phys h') i = true := h
    refine Bus.ext rfl rfl rfl ?_
    funext p j
    show (bus.attached p j && !(p == phys h' && j == i) || (p == phys h' && j == i)) = bus.attached p j
    by_cases hkey : p = phys h' ∧ j = i
    · obtain ⟨rfl, rfl⟩ := hkey
      simp [hattached]
    · have hother : (p == phys h' && j == i) = false := by simpa using hkey
      rw [hother]
      simp
  | claim h i => simp [Bus.take, Bus.give]

theorem Bus.free_take {r r' : Resource} {bus : Bus} (h : (Bus.take phys r bus).Free phys r') : bus.Free phys r' := by
  cases r' with
  | driver h' i =>
    cases r with
    | driver h₁ j => exact (Bool.and_eq_true_iff.mp h).1
    | context c => exact h
    | handle h₁ => exact h
    | claim h₁ j => exact h
  | context c => trivial
  | handle h₁ => trivial
  | claim h₁ j => trivial

theorem Bus.free_comm {r r' : Resource} {bus : Bus} (h : bus.Free phys r) (h' : (Bus.take phys r bus).Free phys r') :
    bus.Free phys r' ∧ (Bus.take phys r' bus).Free phys r := by
  refine ⟨Bus.free_take phys h', ?_⟩
  cases r with
  | driver h₁ i =>
    cases r' with
    | driver h₂ j =>
      -- both are free one after the other, so they are not the same
      have hne := (Bool.and_eq_true_iff.mp h').2
      refine Bool.and_eq_true_iff.mpr ⟨h, ?_⟩
      simp only [Bool.not_eq_true', Bool.and_eq_false_iff, beq_eq_false_iff_ne, ne_eq] at hne ⊢
      exact hne.imp Ne.symm Ne.symm
    | context c => exact h
    | handle h₂ => exact h
    | claim h₂ j => exact h
  | context c => trivial
  | handle h₁ => trivial
  | claim h₁ j => trivial

/-- The bus as a state that resources are taken from and given back to. -/
def busLedger : Ledger Resource Bus where
  take := Bus.take phys
  give := Bus.give phys
  Free r bus := bus.Free phys r
  take_comm := Bus.take_comm phys
  give_take := Bus.give_take phys
  free_comm := Bus.free_comm phys

/-- A device's holdings are free if the driver it detaches is attached. -/
theorem Device.holds_freeAll {bus : Bus} {device : Device}
    (h : device.detachedKernelDriver = true → ∀ h', device.handle = some h' →
      bus.attached (phys h') device.interfaceNumber = true) : (busLedger phys).FreeAll device.holds bus := by
  obtain ⟨ctx, handle, i, claimed, detached, t, seq⟩ := device
  rcases handle with _ | h'
  · cases ctx <;> simp [Device.holds, Ledger.FreeAll, busLedger, Bus.Free]
  · have hattached : detached = true → bus.attached (phys h') i = true := fun hd => h hd h' rfl
    cases ctx <;> cases claimed <;> cases detached <;>
      simp_all [Device.holds, Ledger.FreeAll, busLedger, Bus.Free, Bus.take]

/-- The bus after one call of an open. -/
def Bus.call (host : OpenHost) (bus : Bus) (c : LibusbCall) : Bus :=
  let bus := (c.acquires host).elim bus fun r => bus.take phys r
  c.releases.elim bus fun r => bus.give phys r

/-- The bus after the calls of an open. -/
def Bus.calls (host : OpenHost) (bus : Bus) (calls : List LibusbCall) : Bus := calls.foldl (Bus.call phys host) bus

theorem Bus.calls_append (host : OpenHost) (bus : Bus) (a b : List LibusbCall) :
    bus.calls phys host (a ++ b) = (bus.calls phys host a).calls phys host b := List.foldl_append

theorem Bus.calls_acquiring (host : OpenHost) : ∀ {calls : List LibusbCall} (bus : Bus), released calls = [] →
    bus.calls phys host calls = (busLedger phys).takeAll (acquired host calls) bus
  | [], _, _ => rfl
  | c :: calls, bus, h => by
    have hc : c.releases = none := List.filterMap_eq_nil_iff.mp h c List.mem_cons_self
    have hcalls : released calls = [] :=
      List.filterMap_eq_nil_iff.mpr fun c' hc' => List.filterMap_eq_nil_iff.mp h c' (List.mem_cons_of_mem c hc')
    show (Bus.call phys host bus c).calls phys host calls = _
    rw [Bus.calls_acquiring host _ hcalls]
    unfold Bus.call
    rw [hc]
    cases ha : c.acquires host with
    | none => simp [acquired, ha]
    | some r =>
      simp only [acquired, List.filterMap_cons, ha]
      rfl

theorem Bus.calls_releasing (host : OpenHost) : ∀ {calls : List LibusbCall} (bus : Bus), acquired host calls = [] →
    bus.calls phys host calls = (busLedger phys).giveAll (released calls) bus
  | [], _, _ => rfl
  | c :: calls, bus, h => by
    have hc : c.acquires host = none := List.filterMap_eq_nil_iff.mp h c List.mem_cons_self
    have hcalls : acquired host calls = [] :=
      List.filterMap_eq_nil_iff.mpr fun c' hc' => List.filterMap_eq_nil_iff.mp h c' (List.mem_cons_of_mem c hc')
    show (Bus.call phys host bus c).calls phys host calls = _
    rw [Bus.calls_releasing host _ hcalls]
    unfold Bus.call
    rw [hc]
    cases hr : c.releases with
    | none => simp [released, hr]
    | some r =>
      simp only [released, List.filterMap_cons, hr]
      rfl

/-- The bus after a close, the calls of which all succeed. -/
def Bus.close (bus : Bus) (device : Device) : Bus := (busLedger phys).giveAll (released (muxClose device)) bus

/-- A driver that libusb reports active and then detaches was attached. -/
def Bus.Reports (bus : Bus) (host : OpenHost) (options : Option OpenOptions) : Prop :=
  ∀ h, host.handle = some h → host.kernelDriverActive = 1 → host.detach = .success →
    bus.attached (phys h) (options.getD defaultOpenOptions).interfaceNumber = true

/-- **One open.** If it fails it leaves the bus as it was, and if it succeeds
the device it hands out holds what is new on the bus. -/
theorem muxOpen_bus {bus : Bus} {host : OpenHost} {options : Option OpenOptions}
    (hrep : bus.Reports phys host options) :
    let r := muxOpen host options
    ∃ device : Device, (busLedger phys).FreeAll device.holds bus ∧ acquired host r.2.2 = device.holds ∧
      (r.1 ≠ .ok ∧ r.2.1 = none ∧ released r.2.2 = device.holds.reverse ∧ bus.calls phys host r.2.2 = bus ∨
        r.1 = .ok ∧ r.2.1 = some device ∧ released r.2.2 = [] ∧
          bus.calls phys host r.2.2 = (busLedger phys).takeAll device.holds bus) := by
  intro r
  obtain ⟨device, calls, hmade, hacq, hrel, hr⟩ := muxOpen_spec host options
  have hfree : (busLedger phys).FreeAll device.holds bus := by
    apply Device.holds_freeAll
    intro hd h hh
    obtain ⟨hactive, hdetach⟩ := hmade.detached hd
    obtain ⟨hhandle, hi⟩ := hmade.handle h hh
    rw [hi]
    exact hrep h hhandle hactive hdetach
  refine ⟨device, hfree, ?_, ?_⟩
  · rcases hr with ⟨-, -, hcalls⟩ | ⟨-, -, hcalls⟩
    · rw [hcalls, acquired_append, hacq, muxClose_acquired, List.append_nil]
    · rw [hcalls, hacq]
  · rcases hr with ⟨hret, hout, hcalls⟩ | ⟨hret, hout, hcalls⟩
    · refine .inl ⟨hret, hout, ?_, ?_⟩
      · rw [hcalls, released_append, hrel, muxClose_released, List.nil_append]
      · rw [hcalls, Bus.calls_append, Bus.calls_acquiring phys host bus hrel, hacq,
          Bus.calls_releasing phys host _ (muxClose_acquired host device), muxClose_released, hfree.giveAll_takeAll]
    · refine .inr ⟨hret, hout, by rw [hcalls, hrel], ?_⟩
      rw [hcalls, Bus.calls_acquiring phys host bus hrel, hacq]

/-! ### Runs -/

/-- An open, or a close of the `i`-th of the live devices; past the last one
it is a close of a null pointer. -/
inductive BusOp
  | muxOpen (host : OpenHost) (options : Option OpenOptions)
  | muxClose (i : ℕ)

/-- The bus and the devices handed out and not closed. -/
structure BusState where
  bus : Bus
  live : List Device

def BusState.step (st : BusState) : BusOp → BusState
  | .muxOpen host options =>
    let r := muxOpen host options
    ⟨st.bus.calls phys host r.2.2, st.live ++ r.2.1.toList⟩
  | .muxClose i =>
    match st.live[i]? with
    | some device => ⟨st.bus.close phys device, st.live.eraseIdx i⟩
    | none => st

def BusState.run (st : BusState) (ops : List BusOp) : BusState := ops.foldl (BusState.step phys) st

/-- libusb reports drivers as they are, whenever an open of the run asks. -/
def BusState.Reports : BusState → List BusOp → Prop
  | _, [] => True
  | st, .muxOpen host options :: ops =>
    st.bus.Reports phys host options ∧ BusState.Reports (st.step phys (.muxOpen host options)) ops
  | st, .muxClose i :: ops => BusState.Reports (st.step phys (.muxClose i)) ops

/-- The bus is what the live devices hold on top of `bus₀`. -/
def BusState.Held (bus₀ : Bus) (st : BusState) : Prop :=
  (busLedger phys).Held bus₀ (st.live.map Device.holds) st.bus

variable {phys}

/-- **A step keeps the bus in balance.** -/
theorem BusState.Held.muxOpen {bus₀ : Bus} {st : BusState} (h : st.Held phys bus₀) {host : OpenHost}
    {options : Option OpenOptions} (hrep : st.bus.Reports phys host options) :
    (st.step phys (.muxOpen host options)).Held phys bus₀ := by
  obtain ⟨device, hfree, -, ⟨-, hout, -, hbus⟩ | ⟨-, hout, -, hbus⟩⟩ := muxOpen_bus phys hrep
  · unfold BusState.Held BusState.step
    dsimp only
    rw [hout, hbus, Option.toList_none, List.append_nil]
    exact h
  · unfold BusState.Held BusState.step
    dsimp only
    rw [hout, hbus, Option.toList_some, List.map_append]
    exact Ledger.Held.take h hfree

theorem BusState.Held.muxClose {bus₀ : Bus} {st : BusState} (h : st.Held phys bus₀) (i : ℕ) :
    (st.step phys (.muxClose i)).Held phys bus₀ := by
  unfold BusState.step
  by_cases hi : i < st.live.length
  · have hlive : st.live = st.live.take i ++ st.live[i] :: st.live.drop (i + 1) := by simp
    simp only [List.getElem?_eq_getElem hi]
    unfold BusState.Held at h ⊢
    rw [hlive, List.map_append, List.map_cons] at h
    rw [List.eraseIdx_eq_take_drop_succ, List.map_append]
    unfold Bus.close
    rw [muxClose_released]
    exact h.give
  · simp only [List.getElem?_eq_none (Nat.le_of_not_lt hi)]
    exact h

theorem BusState.run_held {bus₀ : Bus} {ops : List BusOp} {st : BusState} (h : st.Held phys bus₀)
    (hrep : st.Reports phys ops) : (st.run phys ops).Held phys bus₀ := by
  induction ops generalizing st with
  | nil => exact h
  | cons op ops ih =>
    cases op with
    | muxOpen host options => exact ih (h.muxOpen hrep.1) hrep.2
    | muxClose i => exact ih (h.muxClose i) hrep

/-- **Opening and closing are balanced.** After any run, an open that fails
hands no device out and leaves the bus as it was; one that succeeds releases
nothing, and the close of its device releases what it acquired, once and in
the reverse order. Whatever opens and closes come between, the bus is the
same again when the same devices are open. -/
theorem open_close_balanced (phys : ℕ → ℕ) (bus : Bus) (ops : List BusOp)
    (hrep : BusState.Reports phys ⟨bus, []⟩ ops) :
    let st := BusState.run phys ⟨bus, []⟩ ops
    (∀ host options, st.bus.Reports phys host options →
      let r := muxOpen host options
      (acquired host r.2.2).Pairwise (·.rank < ·.rank) ∧
        (r.1 ≠ .ok → r.2.1 = none ∧ released r.2.2 = (acquired host r.2.2).reverse ∧
          st.bus.calls phys host r.2.2 = st.bus) ∧
        (r.1 = .ok → ∃ device, r.2.1 = some device ∧ released r.2.2 = [] ∧
          released (muxClose device) = (acquired host r.2.2).reverse ∧
          (st.bus.calls phys host r.2.2).close phys device = st.bus)) ∧
      ∀ more, st.Reports phys more → (st.run phys more).live.Perm st.live → (st.run phys more).bus = st.bus := by
  intro st
  refine ⟨fun host options hopen => ?_, fun more hmore hlive => ?_⟩
  · intro r
    obtain ⟨device, hfree, hacq, hcases⟩ := muxOpen_bus phys hopen
    rw [show acquired host r.2.2 = device.holds from hacq]
    refine ⟨device.holds_pairwise, fun hret => ?_, fun hret => ?_⟩
    · rcases hcases with ⟨-, hout, hrel, hbus⟩ | ⟨hok, -⟩
      · exact ⟨hout, hrel, hbus⟩
      · exact absurd hok hret
    · rcases hcases with ⟨hne, -⟩ | ⟨-, hout, hrel, hbus⟩
      · exact absurd hret hne
      · refine ⟨device, hout, hrel, muxClose_released device, ?_⟩
        rw [hbus, Bus.close, muxClose_released, hfree.giveAll_takeAll]
  · have hheld : st.Held phys bus := BusState.run_held (Ledger.Held.nil bus) hrep
    have hafter : (st.run phys more).Held phys bus := BusState.run_held hheld hmore
    exact Ledger.Held.unique hafter hheld (hlive.map Device.holds)

/-- The driver is attached, the first open detaches it, and the second is
refused the interface. -/
theorem open_close_balanced_busy :
    let bus : Bus := ⟨0, 0, 0, fun _ _ => true⟩
    let first : BusOp := .muxOpen ⟨true, .success, 0, some 0, 1, .success, .success⟩ none
    let second : BusOp := .muxOpen ⟨true, .success, 1, some 1, 0, .success, .busy⟩ none
    let st := BusState.run (fun _ => 0) ⟨bus, []⟩ [first]
    (st.run (fun _ => 0) [second]).bus = st.bus := by
  intro bus first second st
  have hfirst : BusState.Reports (fun _ => 0) ⟨bus, []⟩ [first] := ⟨fun _ _ _ _ => rfl, trivial⟩
  have hsecond : st.Reports (fun _ => 0) [second] := ⟨fun _ _ hactive _ => absurd hactive (by decide), trivial⟩
  exact (open_close_balanced (fun _ => 0) bus [first] hfirst).2 [second] hsecond (List.Perm.refl _)

end UsbMux
