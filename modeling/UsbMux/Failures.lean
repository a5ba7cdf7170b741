/-
# Where an error comes from

A call stops at the first transfer that fails: every transfer before its last
succeeded and moved a byte, and if the last one failed the call returns the
error it maps to (`FailStop`). The three errors of the transport come from
nowhere else. A call writes first and reads then, with 512 transfers each way
at most (`Exchange`), so none hangs on for ever.

Key definitions: `Event.error`, `FailStop`, `Exchange`.
Key theorems: `writeLoop_fails`, `readLoop_fails`, `Call.run_ends`,
`calls_fail_stop`, `calls_exchange`.
-/
import UsbMux.Channel
import UsbMux.Bounded

namespace UsbMux

open Buffer

variable {σ : Type}

/-! ### Failed transfers -/

/-- What a transfer that returned `ret` and moved `n` bytes makes of the call
that made it, if it ends the call. -/
def xferError (ret : LibusbError) (n : ℕ) : Option Result :=
  if ret ≠ .success then some (mapLibusbError ret) else if n = 0 then some .errIo else none

def Event.error : Event → Option Result
  | .bulkIn _ x => xferError x.ret x.data.length
  | .bulkOut _ x => xferError x.ret x.transferred
  | .interruptIn _ x => xferError x.ret x.data.length

/-- The code libusb returned. -/
def Event.ret : Event → LibusbError
  | .bulkIn _ x => x.ret
  | .bulkOut _ x => x.ret
  | .interruptIn _ x => x.ret

/-- The results that transfers are mapped to. -/
def Result.ofTransfer : Result → Bool
  | errTimeout => true
  | errIo => true
  | errNotFound => true
  | _ => false

theorem mapLibusbError_ofTransfer (e : LibusbError) : (mapLibusbError e).ofTransfer = true := by
  cases e <;> rfl

theorem mapLibusbError_eq_errTimeout {e : LibusbError} : mapLibusbError e = .errTimeout ↔ e = .timeout := by
  cases e <;> simp [mapLibusbError]

theorem mapLibusbError_eq_errNotFound {e : LibusbError} : mapLibusbError e = .errNotFound ↔ e = .noDevice := by
  cases e <;> simp [mapLibusbError]

theorem xferError_of_ne {ret : LibusbError} (h : ret ≠ .success) (n : ℕ) :
    xferError ret n = some (mapLibusbError ret) := if_pos h

theorem xferError_zero : xferError .success 0 = some .errIo := rfl

theorem xferError_of_pos {n : ℕ} (h : n ≠ 0) : xferError .success n = none := by
  unfold xferError
  rw [if_neg (by simp), if_neg h]

theorem xferError_some {ret : LibusbError} {n : ℕ} {r : Result} (h : xferError ret n = some r) :
    r.ofTransfer = true ∧ (r = .errTimeout ↔ ret = .timeout) ∧ (r = .errNotFound ↔ ret = .noDevice) := by
  by_cases hret : ret = .success
  · subst hret
    by_cases hn : n = 0
    · subst hn
      obtain rfl : Result.errIo = r := Option.some.inj h
      simp [Result.ofTransfer]
    · rw [xferError_of_pos hn] at h
      cases h
  · rw [xferError_of_ne hret] at h
    obtain rfl := Option.some.inj h
    exact ⟨mapLibusbError_ofTransfer ret, mapLibusbError_eq_errTimeout, mapLibusbError_eq_errNotFound⟩

theorem xferError_none {ret : LibusbError} {n : ℕ} (h : xferError ret n = none) : ret = .success := by
  by_contra hne
  rw [xferError_of_ne hne] at h
  cases h

theorem Event.error_some {e : Event} {r : Result} (h : e.error = some r) :
    r.ofTransfer = true ∧ (r = .errTimeout ↔ e.ret = .timeout) ∧ (r = .errNotFound ↔ e.ret = .noDevice) := by
  cases e with
  | bulkIn n x => exact xferError_some h
  | bulkOut chunk x => exact xferError_some h
  | interruptIn n x => exact xferError_some h

theorem Event.error_none {e : Event} (h : e.error = none) : e.ret = .success := by
  cases e with
  | bulkIn n x => exact xferError_none h
  | bulkOut chunk x => exact xferError_none h
  | interruptIn n x => exact xferError_none h

/-! ### Stopping -/

/-- The transfers all went through and the result comes from elsewhere, or
the last one failed, the first to do so, and the result is its error. -/
def FailStop (evs : List Event) (ret : Result) : Prop :=
  (∀ e ∈ evs, e.error = none) ∧ ret.ofTransfer = false ∨
    ∃ pre e, evs = pre ++ [e] ∧ (∀ e' ∈ pre, e'.error = none) ∧ e.error = some ret

theorem FailStop.nil {ret : Result} (h : ret.ofTransfer = false) : FailStop [] ret :=
  .inl ⟨List.forall_mem_nil _, h⟩

theorem FailStop.last {e : Event} {ret : Result} (h : e.error = some ret) : FailStop [e] ret :=
  .inr ⟨[], e, rfl, List.forall_mem_nil _, h⟩

/-- What comes before has gone through. -/
theorem FailStop.append {a b : List Event} {ret : Result} (ha : ∀ e ∈ a, e.error = none) (hb : FailStop b ret) :
    FailStop (a ++ b) ret := by
  rcases hb with ⟨hall, hret⟩ | ⟨pre, e, rfl, hpre, he⟩
  · exact .inl ⟨List.forall_mem_append.mpr ⟨ha, hall⟩, hret⟩
  · exact .inr ⟨a ++ pre, e, (List.append_assoc ..).symm, List.forall_mem_append.mpr ⟨ha, hpre⟩, he⟩

theorem FailStop.cons {e : Event} {b : List Event} {ret : Result} (he : e.error = none) (hb : FailStop b ret) :
    FailStop (e :: b) ret := by
  apply FailStop.append (a := [e]) _ hb
  intro e' he'
  rw [List.mem_singleton.mp he', he]

theorem FailStop.all_of_ok {evs : List Event} (h : FailStop evs .ok) : ∀ e ∈ evs, e.error = none := by
  rcases h with ⟨hall, -⟩ | ⟨pre, e, -, -, he⟩
  · exact hall
  · cases (Event.error_some he).1

/-- The errors of the transport tell what a transfer returned. -/
theorem FailStop.iff {evs : List Event} {ret : Result} (h : FailStop evs ret) :
    (ret = .errTimeout ↔ ∃ e ∈ evs, e.ret = .timeout) ∧ (ret = .errNotFound ↔ ∃ e ∈ evs, e.ret = .noDevice) := by
  rcases h with ⟨hall, hret⟩ | ⟨pre, e, rfl, hpre, he⟩
  · have hsucc : ∀ e ∈ evs, e.ret = .success := fun e he => Event.error_none (hall e he)
    refine ⟨iff_of_false ?_ ?_, iff_of_false ?_ ?_⟩
    · rintro rfl
      cases hret
    · rintro ⟨e, he, htimeout⟩
      cases (hsucc e he).symm.trans htimeout
    · rintro rfl
      cases hret
    · rintro ⟨e, he, hgone⟩
      cases (hsucc e he).symm.trans hgone
  · obtain ⟨-, htimeout, hgone⟩ := Event.error_some he
    have hlast : ∀ r : LibusbError, r ≠ .success → ((∃ e' ∈ pre ++ [e], e'.ret = r) ↔ e.ret = r) := by
      intro r hr
      refine ⟨fun h => ?_, fun h => ⟨e, by simp, h⟩⟩
      obtain ⟨e', hmem, rfl⟩ := h
      rcases List.mem_append.mp hmem with hmem | hmem
      · exact absurd (Event.error_none (hpre e' hmem)) hr
      · rw [List.mem_singleton.mp hmem]
    exact ⟨htimeout.trans (hlast _ (by simp)).symm, hgone.trans (hlast _ (by simp)).symm⟩

/-! ### Loops -/

/-- An OUT transfer of a frame or a rest of one. -/
def OutXferOf (e : Event) : Prop := ∃ chunk x, e = .bulkOut chunk x ∧ 0 < chunk.length ∧ chunk.length ≤ 512

/-- An IN transfer that asks for a packet at most. -/
def InXferOf (e : Event) : Prop := ∃ n x, e = .bulkIn n x ∧ 0 < n ∧ n ≤ 64

/-- **The write loop** stops at the first transfer that fails. -/
theorem writeLoop_fails (host : Host σ) (dev : Device) {frame : Bytes} {frameLen : ℕ} (hlen : frameLen ≤ frame.length)
    (h512 : frameLen ≤ 512) (offset : ℕ) (s : σ) :
    let r := writeLoop host dev frame frameLen offset s
    ∃ evs, Makes host dev.timeoutMs s evs r.2 ∧ FailStop evs r.1 ∧ (∀ e ∈ evs, OutXferOf e) ∧
      evs.length ≤ frameLen - offset := by
  have hout : ∀ {offset : ℕ} (x : OutXfer), offset < frameLen →
      OutXferOf (.bulkOut ((frame.drop offset).take (frameLen - offset)) x) := by
    intro offset x hlt
    refine ⟨_, x, rfl, List.length_pos_iff.mpr (chunk_ne_nil hlen hlt), ?_⟩
    rw [List.length_take]
    omega
  fun_induction writeLoop host dev frame frameLen offset s with
  | case1 offset s hlt chunk x s₁ hx hret =>
    refine ⟨[.bulkOut chunk x], ⟨s₁, hx, rfl⟩, .last (xferError_of_ne hret _), ?_, ?_⟩
    · exact List.forall_mem_singleton.mpr (hout x hlt)
    · rw [List.length_singleton]
      omega
  | case2 offset s hlt chunk x s₁ hx hret hzero =>
    have herror : Event.error (.bulkOut chunk x) = some .errIo := by
      rw [Event.error, not_not.mp hret, hzero, xferError_zero]
    refine ⟨[.bulkOut chunk x], ⟨s₁, hx, rfl⟩, .last herror, ?_, ?_⟩
    · exact List.forall_mem_singleton.mpr (hout x hlt)
    · rw [List.length_singleton]
      omega
  | case3 offset s hlt chunk x s₁ hx hret hzero ih =>
    obtain ⟨evs, hm, hstop, houts, hcount⟩ := ih
    have herror : Event.error (.bulkOut chunk x) = none := by
      rw [Event.error, not_not.mp hret, xferError_of_pos hzero]
    refine ⟨.bulkOut chunk x :: evs, ⟨s₁, hx, hm⟩, hstop.cons herror, ?_, ?_⟩
    · exact List.forall_mem_cons.mpr ⟨hout x hlt, houts⟩
    · rw [List.length_cons]
      omega
  | case4 offset s hlt => exact ⟨[], rfl, .nil rfl, List.forall_mem_nil _, Nat.zero_le _⟩

theorem decodeHeader_error_ofTransfer {src : Bytes} {n : ℕ} {ret : Result} (h : decodeHeader src n = .error ret) :
    ret.ofTransfer = false := by
  rcases decodeHeader_error_inv h with rfl | ⟨-, hshape⟩
  · rfl
  · rw [← hshape]
    unfold checkHeaderShape
    split_ifs <;> rfl

/-- A transfer that moves a byte is one of those there is room for. -/
theorem succ_le_of_moved {count offset n : ℕ} (h : count ≤ 512 - (offset + n)) (hn : n ≠ 0) (hle : offset + n ≤ 512) :
    count + 1 ≤ 512 - offset := by
  omega

/-- **The read loop** stops at the first transfer that fails. -/
theorem readLoop_fails (host : Host σ) (dev : Device) {offset targetLen : ℕ} (hoffset : offset ≤ 512)
    (htarget : targetLen ≤ 512) (frame : Bytes) (s : σ) :
    let r := readLoop host dev 512 offset targetLen frame s
    ∃ evs, Makes host dev.timeoutMs s evs r.state ∧ FailStop evs r.ret ∧ (∀ e ∈ evs, InXferOf e) ∧
      evs.length ≤ 512 - offset := by
  fun_induction readLoop host dev 512 offset targetLen frame s with
  | case1 offset targetLen frame s hlt capacity hc => exact ⟨[], rfl, .nil rfl, List.forall_mem_nil _, Nat.zero_le _⟩
  | case2 offset targetLen frame s hlt capacity hc x s₁ hx frame₁ hret =>
    obtain ⟨h1, h64, -⟩ := request_bounds maxFrameLen_lt_size hoffset hc
    refine ⟨[.bulkIn _ x], ⟨s₁, hx, rfl⟩, .last (xferError_of_ne hret _), ?_, ?_⟩
    · exact List.forall_mem_singleton.mpr ⟨_, x, rfl, h1, h64⟩
    · rw [List.length_singleton]
      omega
  | case3 offset targetLen frame s hlt capacity hc x s₁ hx frame₁ hret hdata =>
    obtain ⟨h1, h64, -⟩ := request_bounds maxFrameLen_lt_size hoffset hc
    refine ⟨[.bulkIn _ x], ⟨s₁, hx, rfl⟩, .last ?_, ?_, ?_⟩
    · rw [Event.error, not_not.mp hret, hdata, xferError_zero]
    · exact List.forall_mem_singleton.mpr ⟨_, x, rfl, h1, h64⟩
    · rw [List.length_singleton]
      omega
  | case4 offset targetLen frame s hlt capacity hc x s₁ hx frame₁ hret hdata offset₁ htgt ret hdec =>
    obtain ⟨h1, h64, -⟩ := request_bounds maxFrameLen_lt_size hoffset hc
    have herror : Event.error (.bulkIn (clampToPacket capacity).toNat x) = none := by
      rw [Event.error, not_not.mp hret, xferError_of_pos hdata]
    refine ⟨[.bulkIn _ x], ⟨s₁, hx, rfl⟩, (FailStop.nil (decodeHeader_error_ofTransfer hdec)).cons herror, ?_, ?_⟩
    · exact List.forall_mem_singleton.mpr ⟨_, x, rfl, h1, h64⟩
    · rw [List.length_singleton]
      omega
  | case5 offset targetLen frame s hlt capacity hc x s₁ hx frame₁ hret hdata offset₁ htgt header hdec hbig =>
    exact absurd hbig (Nat.not_lt.mpr (decoded_totalLen_le hdec))
  | case6 offset targetLen frame s hlt capacity hc x s₁ hx frame₁ hret hdata offset₁ htgt header hdec hbig ih =>
    obtain ⟨h1, h64, hroom⟩ := request_bounds maxFrameLen_lt_size hoffset hc
    have hle : x.data.length ≤ (clampToPacket capacity).toNat := host.length_le_of_bulkIn hx
    have hoffset₁ : offset₁ ≤ 512 := le_trans (Nat.add_le_add_left hle offset) hroom
    obtain ⟨evs, hm, hstop, hins, hcount⟩ := ih hoffset₁ (decoded_totalLen_le hdec)
    have herror : Event.error (.bulkIn (clampToPacket capacity).toNat x) = none := by
      rw [Event.error, not_not.mp hret, xferError_of_pos hdata]
    refine ⟨.bulkIn _ x :: evs, ⟨s₁, hx, hm⟩, hstop.cons herror, ?_, ?_⟩
    · exact List.forall_mem_cons.mpr ⟨⟨_, x, rfl, h1, h64⟩, hins⟩
    · exact succ_le_of_moved hcount hdata hoffset₁
  | case7 offset targetLen frame s hlt capacity hc x s₁ hx frame₁ hret hdata offset₁ htgt ih =>
    obtain ⟨h1, h64, hroom⟩ := request_bounds maxFrameLen_lt_size hoffset hc
    have hle : x.data.length ≤ (clampToPacket capacity).toNat := host.length_le_of_bulkIn hx
    have hoffset₁ : offset₁ ≤ 512 := le_trans (Nat.add_le_add_left hle offset) hroom
    obtain ⟨evs, hm, hstop, hins, hcount⟩ := ih hoffset₁ htarget
    have herror : Event.error (.bulkIn (clampToPacket capacity).toNat x) = none := by
      rw [Event.error, not_not.mp hret, xferError_of_pos hdata]
    refine ⟨.bulkIn _ x :: evs, ⟨s₁, hx, hm⟩, hstop.cons herror, ?_, ?_⟩
    · exact List.forall_mem_cons.mpr ⟨⟨_, x, rfl, h1, h64⟩, hins⟩
    · exact succ_le_of_moved hcount hdata hoffset₁
  | case8 offset targetLen frame s hlt => exact ⟨[], rfl, .nil rfl, List.forall_mem_nil _, Nat.zero_le _⟩

/-! ### Calls -/

/-- First OUT transfers, then IN transfers, 512 each at most. -/
def Exchange (evs : List Event) : Prop :=
  ∃ outs ins, evs = outs ++ ins ∧ (∀ e ∈ outs, OutXferOf e) ∧ outs.length ≤ 512 ∧ (∀ e ∈ ins, InXferOf e) ∧
    ins.length ≤ 512

theorem Exchange.nil : Exchange [] :=
  ⟨[], [], rfl, List.forall_mem_nil _, Nat.zero_le _, List.forall_mem_nil _, Nat.zero_le _⟩

theorem receive_fails {accept : Header → Bytes → Out → Result × Out}
    (hacc : ∀ h frame out, (accept h frame out).1.ofTransfer = false) (host : Host σ) (dev : Device) (out : Out)
    (s : σ) :
    let r := receive host dev accept out s
    ∃ evs, Makes host dev.timeoutMs s evs r.2.2 ∧ FailStop evs r.1 ∧ (∀ e ∈ evs, InXferOf e) ∧ evs.length ≤ 512 := by
  intro r
  obtain ⟨evs, hm, hstop, hins, hcount⟩ := readLoop_fails host dev (Nat.zero_le 512) (show 24 ≤ 512 by omega)
    (host.stack s 512) s
  have hread : readFrame host dev (host.stack s 512) 512 0 s = readLoop host dev 512 0 24 (host.stack s 512) s := rfl
  refine ⟨evs, ?_, ?_, hins, hcount⟩
  · rcases receive_cases host dev accept out s with ⟨-, hr⟩ | ⟨-, ret, -, hr⟩ | ⟨-, h, -, hr⟩
    · rw [show r = _ from hr, hread]
      exact hm
    · rw [show r = _ from hr, hread]
      exact hm
    · rw [show r = _ from hr, hread]
      exact hm
  · rcases receive_cases host dev accept out s with ⟨-, hr⟩ | ⟨hok, ret, hdec, hr⟩ | ⟨hok, h, -, hr⟩
    · rw [show r = _ from hr, hread]
      exact hstop
    · rw [hread] at hok
      rw [hok] at hstop
      rw [show r = _ from hr]
      exact .inl ⟨hstop.all_of_ok, decodeHeader_error_ofTransfer hdec⟩
    · rw [hread] at hok
      rw [hok] at hstop
      rw [show r = _ from hr]
      exact .inl ⟨hstop.all_of_ok, hacc h _ out⟩

theorem acceptResponse_ofTransfer (seq : UInt16) (chType chId opcode : UInt8) (cap : ℕ) (h : Header) (frame : Bytes)
    (out : Out) : (acceptResponse seq chType chId opcode cap h frame out).1.ofTransfer = false := by
  unfold acceptResponse
  split_ifs <;> rfl

theorem acceptData_ofTransfer (port : UInt8) (cap : ℕ) (h : Header) (frame : Bytes) (out : Out) :
    (acceptData port cap h frame out).1.ofTransfer = false := by
  unfold acceptData
  split_ifs <;> rfl

theorem acceptEvent_ofTransfer (cap : ℕ) (h : Header) (frame : Bytes) (out : Out) :
    (acceptEvent cap h frame out).1.ofTransfer = false := by
  unfold acceptEvent
  split_ifs <;> rfl

/-- A payload that does not go into a frame is refused before any transfer. -/
theorem buildFrame_ofTransfer {dst : Bytes} {frameLen : ℕ} {h : Header} {payload : Option Bytes} {payloadLen : ℕ}
    (hd : 512 ≤ dst.length) (hb : (buildFrame dst 512 frameLen h payload payloadLen).ret ≠ .ok) :
    (buildFrame dst 512 frameLen h payload payloadLen).ret.ofTransfer = false := by
  have hfits : ¬Fits 512 payload payloadLen := fun hfits => hb ((buildFrame_ok hd).mpr hfits)
  have hsome := refusal_of_not_fits hfits dst frameLen h
  unfold refusal at hsome
  split_ifs at hsome
  · rw [← Option.some.inj hsome]
    rfl
  · rw [← Option.some.inj hsome]
    rfl

/-- Writing a frame that is built. -/
theorem writeFrame_fails (host : Host σ) (dev : Device) (s : σ) {h : Header} {payload : Option Bytes} {payloadLen : ℕ}
    (hb : (buildFrame (host.stack s 512) 512 0 h payload payloadLen).ret = .ok) :
    let b := buildFrame (host.stack s 512) 512 0 h payload payloadLen
    let w := writeFrame host dev b.dst b.frameLen s
    ∃ evs, Makes host dev.timeoutMs s evs w.2 ∧ FailStop evs w.1 ∧ (∀ e ∈ evs, OutXferOf e) ∧ evs.length ≤ 512 := by
  intro b w
  have hstack : 512 ≤ (host.stack s 512).length := (host.length_stack s 512).ge
  have hfits := (buildFrame_ok hstack).mp hb
  obtain ⟨htake, -⟩ := decodeHeader_built 0 h hfits hstack
  have hlen : b.frameLen = 24 + payloadLen := congrArg Built.frameLen (buildFrame_eq 0 h hfits hstack)
  have hp := hfits.2.1
  have hdst : b.frameLen ≤ b.dst.length := by
    rw [← htake]
    exact List.length_take_le' _ _
  have hw : w = writeLoop host dev b.dst b.frameLen 0 s := if_neg (by simp only [MAX_FRAME_LEN]; omega)
  obtain ⟨evs, hm, hstop, houts, hcount⟩ := writeLoop_fails host dev hdst (by omega) 0 s
  rw [← hw] at hm hstop
  exact ⟨evs, hm, hstop, houts, by omega⟩

/-- What a call does on the wire: its transfers, and why it stopped. -/
def Ends (host : Host σ) (t : ℕ) (s : σ) (ret : Result) (s' : σ) : Prop :=
  ∃ evs, Makes host t s evs s' ∧ FailStop evs ret ∧ Exchange evs

theorem Ends.none {host : Host σ} {t : ℕ} {s : σ} {ret : Result} (h : ret.ofTransfer = false) : Ends host t s ret s :=
  ⟨[], rfl, .nil h, .nil⟩

theorem transact_ends (host : Host σ) (dev : Device) (chType chId msgType opcode : UInt8) (payload : Option Bytes)
    (payloadLen : ℕ) (out : Out) (rspCapacity : ℕ) (s : σ) :
    let r := transact host dev chType chId msgType opcode payload payloadLen out rspCapacity s
    Ends host dev.timeoutMs s r.ret r.state := by
  intro r
  have hstack : 512 ≤ (host.stack s 512).length := (host.length_stack s 512).ge
  obtain ⟨-, hr⟩ := transact_cases host dev chType chId msgType opcode payload payloadLen out rspCapacity s
  rcases hr with ⟨hb, hret, -, hs⟩ | ⟨hb, -, hret, -, hs⟩ | ⟨hb, hok, hr⟩
  · rw [show r.ret = _ from hret, show r.state = _ from hs]
    exact .none (buildFrame_ofTransfer hstack hb)
  · obtain ⟨evs, hm, hstop, houts, hcount⟩ := writeFrame_fails host (nextSeq dev).2 s hb
    rw [show r.ret = _ from hret, show r.state = _ from hs]
    exact ⟨evs, hm, hstop, evs, [], (List.append_nil _).symm, houts, hcount, List.forall_mem_nil _, Nat.zero_le _⟩
  · obtain ⟨outs, hwm, hwstop, houts, hcount⟩ := writeFrame_fails host (nextSeq dev).2 s hb
    rw [hok] at hwstop
    obtain ⟨ins, hm, hstop, hins, hcount'⟩ := receive_fails (acceptResponse_ofTransfer _ chType chId opcode rspCapacity)
      host (nextSeq dev).2 out _
    obtain ⟨hret, hr⟩ := Prod.mk.inj hr
    obtain ⟨-, hs⟩ := Prod.mk.inj hr
    rw [show r.ret = _ from hret, show r.state = _ from hs]
    exact ⟨outs ++ ins, hwm.append hm, hstop.append hwstop.all_of_ok, outs, ins, rfl, houts, hcount, hins, hcount'⟩

/-- Both readers refuse their arguments or receive. -/
theorem ends_of_receive {accept : Header → Bytes → Out → Result × Out}
    (hacc : ∀ h frame out, (accept h frame out).1.ofTransfer = false) {host : Host σ} {dev : Device} {out : Out} {s : σ}
    {r : Result × Out × σ} (hr : r = (.errArg, out, s) ∨ r = receive host dev accept out s) :
    Ends host dev.timeoutMs s r.1 r.2.2 := by
  rcases hr with rfl | rfl
  · exact .none rfl
  · obtain ⟨evs, hm, hstop, hins, hcount⟩ := receive_fails hacc host dev out s
    exact ⟨evs, hm, hstop, [], evs, rfl, List.forall_mem_nil _, Nat.zero_le _, hins, hcount⟩

/-- **A call** writes, reads, and stops at the first transfer that fails. -/
theorem Call.run_ends (host : Host σ) (dev : Device) (s : σ) (c : Call) :
    let r := c.run host dev s
    Ends host dev.timeoutMs s r.ret r.state := by
  cases c with
  | transact chType chId msgType opcode payload payloadLen out cap => exact transact_ends host dev ..
  | bleTransact opcode payload payloadLen rspPayload cap rspLen =>
    exact transact_ends host dev ChannelType.bleMgmt.code 0 MsgType.cmd.code opcode payload payloadLen
      ⟨none, rspPayload, rspLen⟩ cap s
  | uartWrite port data len =>
    show Ends host dev.timeoutMs s (UsbMux.uartWrite host dev port data len s).1
      (UsbMux.uartWrite host dev port data len s).2.2
    rcases uartWrite_cases host dev port data len s with ⟨-, hr⟩ | ⟨-, ⟨hb, hr⟩ | ⟨hb, hr⟩⟩
    · rw [hr]
      exact .none rfl
    · rw [hr]
      exact .none (buildFrame_ofTransfer (host.length_stack s 512).ge hb)
    · obtain ⟨evs, hm, hstop, houts, hcount⟩ := writeFrame_fails host (UsbMux.nextSeq dev).2 s hb
      rw [hr]
      exact ⟨evs, hm, hstop, evs, [], (List.append_nil _).symm, houts, hcount, List.forall_mem_nil _, Nat.zero_le _⟩
  | uartRead port data cap len =>
    exact ends_of_receive (acceptData_ofTransfer port cap) (uartRead_cases host dev port data cap len s)
  | bleReadEvent out cap => exact ends_of_receive (acceptEvent_ofTransfer cap) (bleReadEvent_cases host dev out cap s)
  | nextSeq => exact .none rfl

theorem Call.step_ends (host : Host σ) (dev : Device) (s : σ) (c : Call) :
    FailStop (c.step host dev s).events (c.step host dev s).reply.ret ∧ Exchange (c.step host dev s).events := by
  obtain ⟨evs, hm, hstop, hex⟩ := c.run_ends host.logged dev (s, [])
  have hevs : (c.step host dev s).events = evs := hm.log
  rw [hevs]
  exact ⟨hstop, hex⟩

/-! ### Runs -/

/-- **A transport error is the error of the last transfer.** Whatever the
transfers of a run return, every call stops at the first one that fails. It
returns ERR_TIMEOUT exactly when one of its transfers timed out, and
ERR_NOT_FOUND exactly when one found no device. -/
theorem calls_fail_stop (host : Host σ) (calls : List Call) (dev : Device) (s : σ) :
    ∀ st ∈ run host calls dev s, FailStop st.events st.reply.ret ∧
      (st.reply.ret = .errTimeout ↔ ∃ e ∈ st.events, e.ret = .timeout) ∧
      (st.reply.ret = .errNotFound ↔ ∃ e ∈ st.events, e.ret = .noDevice) := by
  intro st hst
  obtain ⟨s', heq⟩ := run_step hst
  obtain ⟨hstop, -⟩ := st.call.step_ends host st.before s'
  rw [← heq] at hstop
  exact ⟨hstop, hstop.iff⟩

/-- Nothing comes in, so the read times out, and one of its transfers did. -/
theorem calls_fail_stop_silent :
    let st := Call.step (Pipe.host Stack.zero silent) freshDevice ⟨[], ()⟩ (.bleReadEvent ⟨none, none, some 0⟩ 0)
    st.reply.ret = .errTimeout ∧ ∃ e ∈ st.events, e.ret = .timeout := by
  intro st
  obtain ⟨-, htimeout, -⟩ := calls_fail_stop (Pipe.host Stack.zero silent) [.bleReadEvent ⟨none, none, some 0⟩ 0]
    freshDevice ⟨[], ()⟩ st List.mem_cons_self
  have hret : st.reply.ret = .errTimeout := by decide +kernel
  exact ⟨hret, htimeout.mp hret⟩

/-- **No call hangs on.** Whatever the transfers of a run return, every call
makes at most 512 transfers on EP3 OUT, each of 1 to 512 bytes, and after them
at most 512 on EP2 IN, each for 1 to 64 bytes. -/
theorem calls_exchange (host : Host σ) (calls : List Call) (dev : Device) (s : σ) :
    ∀ st ∈ run host calls dev s, Exchange st.events := by
  intro st hst
  obtain ⟨s', heq⟩ := run_step hst
  obtain ⟨-, hex⟩ := st.call.step_ends host st.before s'
  rwa [← heq] at hex

theorem calls_exchange_silent :
    Exchange (Call.step (Pipe.host Stack.zero silent) freshDevice ⟨[], ()⟩
      (.transact 0 0 MsgType.cmd.code SYS_HEARTBEAT (some [0x70]) 1 ⟨none, some [0, 0], some 0⟩ 2)).events :=
  calls_exchange (Pipe.host Stack.zero silent)
    [.transact 0 0 MsgType.cmd.code SYS_HEARTBEAT (some [0x70]) 1 ⟨none, some [0, 0], some 0⟩ 2] freshDevice ⟨[], ()⟩ _
    List.mem_cons_self

end UsbMux
