/-
# What a failed call leaves to the caller

Every function that fills objects of its caller stores at its very end: the
checks of all layers come first, and what comes in before them goes to buffers
of the function itself. So a call that returns an error leaves the caller's
objects as they were (`FailsClean`), and one that returns OK leaves the data
buffer behind the length it reports (`TailKept`).

Key definitions: `FailsClean`, `TailKept`, `onDevice`.
Key theorems: `receive_failsClean`, `query_failsClean`, `failed_calls_leave_outputs`.
-/
import UsbMux.Delivered

namespace UsbMux

open Buffer

variable {σ α ρ : Type}

/-- A failed call leaves the caller's objects as they were. -/
def FailsClean (before : α) (r : Result × α) : Prop := r.1 ≠ .ok → r.2 = before

/-- A call on a device pointer: a null pointer is refused before anything is
done. -/
def onDevice (dev : Option Device) (before : α) (call : Device → Result × α) : Result × α :=
  match dev with
  | none => (.errArg, before)
  | some dev => call dev

theorem onDevice_failsClean {before : α} {call : Device → Result × α} (h : ∀ dev, FailsClean before (call dev)) :
    ∀ dev, FailsClean before (onDevice dev before call)
  | none => fun _ => rfl
  | some dev => h dev

theorem FailsClean.kept (before : α) (ret : Result) : FailsClean before (ret, before) := fun _ => rfl

theorem FailsClean.ok (before after : α) : FailsClean before (.ok, after) := fun hne => absurd rfl hne

theorem FailsClean.ite {before : α} {p : Prop} [Decidable p] {r r' : Result × α} (h : FailsClean before r)
    (h' : FailsClean before r') : FailsClean before (if p then r else r') := by
  by_cases hp : p
  · rwa [if_pos hp]
  · rwa [if_neg hp]

/-! ### Calls that receive -/

theorem acceptResponse_failsClean (seq : UInt16) (chType chId opcode : UInt8) (cap : ℕ) (h : Header) (frame : Bytes)
    (out : Out) : FailsClean out (acceptResponse seq chType chId opcode cap h frame out) :=
  .ite (.kept out _) (.ite (.kept out _) (.ite (.kept out _) (.ite (.kept out _) (.ok out _))))

theorem acceptData_failsClean (port : UInt8) (cap : ℕ) (h : Header) (frame : Bytes) (out : Out) :
    FailsClean out (acceptData port cap h frame out) :=
  .ite (.kept out _) (.ite (.kept out _) (.ok out _))

theorem acceptEvent_failsClean (cap : ℕ) (h : Header) (frame : Bytes) (out : Out) :
    FailsClean out (acceptEvent cap h frame out) :=
  .ite (.kept out _) (.ite (.kept out _) (.ite (.kept out _) (.ok out _)))

theorem receive_failsClean {accept : Header → Bytes → Out → Result × Out}
    (hacc : ∀ h frame out, FailsClean out (accept h frame out)) (host : Host σ) (dev : Device) (out : Out) (s : σ) :
    FailsClean out ((receive host dev accept out s).1, (receive host dev accept out s).2.1) := by
  intro hne
  rcases receive_cases host dev accept out s with ⟨-, hr⟩ | ⟨-, ret, -, hr⟩ | ⟨-, h, -, hr⟩
  · rw [hr]
  · rw [hr]
  · rw [hr] at hne ⊢
    exact hacc h _ out hne

theorem transact_failsClean (host : Host σ) (dev : Device) (chType chId msgType opcode : UInt8) (payload : Option Bytes)
    (payloadLen : ℕ) (out : Out) (cap : ℕ) (s : σ) :
    let r := transact host dev chType chId msgType opcode payload payloadLen out cap s
    FailsClean out (r.ret, r.out) := by
  intro r hne
  obtain ⟨-, hr⟩ := transact_cases host dev chType chId msgType opcode payload payloadLen out cap s
  rcases hr with ⟨-, -, hout, -⟩ | ⟨-, -, -, hout, -⟩ | ⟨-, -, hr⟩
  · exact hout
  · exact hout
  · obtain ⟨hret, hr⟩ := Prod.mk.inj hr
    obtain ⟨hout, -⟩ := Prod.mk.inj hr
    have hclean := receive_failsClean
      (fun h frame out => acceptResponse_failsClean _ chType chId opcode cap h frame out)
      host (nextSeq dev).2 out _ (hret ▸ hne)
    exact hout.trans hclean

/-- A query stores its record only when it returns OK. -/
theorem query_failsClean (call : Out → ℕ → σ → Reply σ Out) (host : Host σ) (size : ℕ) (parse : Bytes → ρ)
    (dev : Device)
    (record : Option ρ) (s : σ) :
    let r := query host call size parse dev record s
    FailsClean record (r.ret, r.out) := by
  intro r hne
  simp only [r, query] at hne ⊢
  split_ifs at hne ⊢ with hnull hret hlen
  · rfl
  · rfl
  · rfl
  · exact absurd rfl hne

/-- A reader refuses its arguments or receives. -/
theorem failsClean_of_receive {accept : Header → Bytes → Out → Result × Out}
    (hacc : ∀ h frame out, FailsClean out (accept h frame out)) {host : Host σ} {dev : Device} {out : Out} {s : σ}
    {r : Result × Out × σ} (hr : r = (.errArg, out, s) ∨ r = receive host dev accept out s) :
    FailsClean out (r.1, r.2.1) := by
  rcases hr with rfl | rfl
  · exact .kept out _
  · exact receive_failsClean hacc host dev out s

theorem uartRead_failsClean (host : Host σ) (dev : Device) (port : UInt8) (data : Option Bytes) (cap : ℕ)
    (len : Option ℕ) (s : σ) :
    let r := uartRead host dev port data cap len s
    FailsClean ⟨none, data, len⟩ (r.1, r.2.1) :=
  failsClean_of_receive (acceptData_failsClean port cap) (uartRead_cases host dev port data cap len s)

theorem bleReadEvent_failsClean (host : Host σ) (dev : Device) (out : Out) (cap : ℕ) (s : σ) :
    let r := bleReadEvent host dev out cap s
    FailsClean out (r.1, r.2.1) :=
  failsClean_of_receive (acceptEvent_failsClean cap) (bleReadEvent_cases host dev out cap s)

theorem readHint_failsClean (host : Host σ) (dev : Device) (hint : IrqHint) (s : σ) :
    let r := readHint host dev hint s
    FailsClean hint (r.1, r.2.1) := by
  intro r hne
  simp only [r, readHint] at hne ⊢
  split_ifs at hne ⊢ with hret hlen
  · rfl
  · rfl
  · split at hne
    · rfl
    · exact absurd rfl hne

/-! ### The rest of the data buffer -/

/-- The call reported a length within the buffer's capacity and left the
buffer behind it as it was. -/
def TailKept (cap : ℕ) (out out' : Out) : Prop :=
  ∃ L, L ≤ cap ∧ out'.len = out.len.map (fun _ => L) ∧ out'.payload.map (·.drop L) = out.payload.map (·.drop L)

/-- A copy of at most `L` bytes to the front leaves what is behind `L`. -/
theorem drop_writeAt_zero {dst src : Bytes} {L : ℕ} (h : src.length ≤ L) : (writeAt dst 0 src).drop L = dst.drop L := by
  rw [writeAt_zero, List.drop_append, List.drop_eq_nil_of_le h, List.nil_append, List.drop_drop]
  congr 1
  omega

theorem Out.store_tailKept {h : Header} {cap : ℕ} (hcap : h.payloadLen.toNat ≤ cap) (frame : Bytes) (out : Out) :
    TailKept cap out (out.store h frame) := by
  refine ⟨h.payloadLen.toNat, hcap, rfl, ?_⟩
  cases hp : out.payload with
  | none => rw [Out.store, hp]; rfl
  | some p =>
    rw [Out.store, hp, Option.map_some, Option.map_some, Option.map_some]
    exact congrArg some (drop_writeAt_zero (List.length_take_le _ _))

theorem receive_tailKept {cap : ℕ} {accept : Header → Bytes → Out → Result × Out} (hst : Stores cap accept)
    (host : Host σ) (dev : Device) (out : Out) (s : σ) :
    let r := receive host dev accept out s
    r.1 = .ok → TailKept cap out r.2.1 := by
  intro r hok
  rcases receive_cases host dev accept out s with ⟨hne, hr⟩ | ⟨-, ret, hdec, hr⟩ | ⟨-, h, -, hr⟩
  · rw [show r = _ from hr] at hok
    exact absurd hok hne
  · rw [show r = _ from hr] at hok
    exact absurd hok (decodeHeader_error_ne_ok hdec)
  · rw [show r = _ from hr] at hok ⊢
    obtain ⟨hcap, hout⟩ := hst h _ out _ (Prod.ext hok rfl)
    have hkept := Out.store_tailKept hcap (readFrame host dev (host.stack s 512) 512 0 s).frame out
    rwa [← hout] at hkept

theorem tailKept_of_receive {cap : ℕ} {accept : Header → Bytes → Out → Result × Out} (hst : Stores cap accept)
    {host : Host σ} {dev : Device} {out : Out} {s : σ} {r : Result × Out × σ}
    (hr : r = (.errArg, out, s) ∨ r = receive host dev accept out s) : r.1 = .ok → TailKept cap out r.2.1 := by
  intro hok
  rcases hr with rfl | rfl
  · cases hok
  · exact receive_tailKept hst host dev out s hok

theorem transact_tailKept (host : Host σ) (dev : Device) (chType chId msgType opcode : UInt8) (payload : Option Bytes)
    (payloadLen : ℕ) (out : Out) (cap : ℕ) (s : σ) :
    let r := transact host dev chType chId msgType opcode payload payloadLen out cap s
    r.ret = .ok → TailKept cap out r.out := by
  intro r hok
  obtain ⟨-, hr⟩ := transact_cases host dev chType chId msgType opcode payload payloadLen out cap s
  rcases hr with ⟨hb, hret, -⟩ | ⟨-, hw, hret, -⟩ | ⟨-, -, hr⟩
  · exact absurd (hret.symm.trans hok) hb
  · exact absurd (hret.symm.trans hok) hw
  · obtain ⟨hret, hr⟩ := Prod.mk.inj hr
    obtain ⟨hout, -⟩ := Prod.mk.inj hr
    rw [hout]
    exact receive_tailKept (acceptResponse_stores _ chType chId opcode cap) host (nextSeq dev).2 out _
      (hret.symm.trans hok)

theorem onDevice_ok {before : α} {call : Device → Result × α} {P : α → Prop}
    (h : ∀ dev, (call dev).1 = .ok → P (call dev).2) :
    ∀ dev, (onDevice dev before call).1 = .ok → P (onDevice dev before call).2
  | none => fun hok => by cases hok
  | some dev => h dev

/-- **Failed calls leave the caller's outputs alone**, whatever the transfers
return and wherever the call fails, and a call that returns OK leaves the data
buffer behind the length it reports. -/
theorem failed_calls_leave_outputs (host : Host σ) (dev : Option Device) (s : σ) :
    (∀ info, FailsClean info (onDevice dev info fun dev =>
      ((sysGetDevInfo host dev info s).ret, (sysGetDevInfo host dev info s).out))) ∧
    (∀ caps, FailsClean caps (onDevice dev caps fun dev =>
      ((sysGetCaps host dev caps s).ret, (sysGetCaps host dev caps s).out))) ∧
    (∀ payload payloadLen response cap len,
      let out : Out := ⟨none, response, len⟩
      let r := onDevice dev out fun dev => ((sysHeartbeat host dev payload payloadLen response cap len s).ret,
        (sysHeartbeat host dev payload payloadLen response cap len s).out)
      FailsClean out r ∧ (r.1 = .ok → TailKept cap out r.2)) ∧
    (∀ port record, FailsClean record (onDevice dev record fun dev =>
      ((uartGetPortCap host dev port record s).ret, (uartGetPortCap host dev port record s).out))) ∧
    (∀ port stats, FailsClean stats (onDevice dev stats fun dev =>
      ((uartGetStats host dev port stats s).ret, (uartGetStats host dev port stats s).out))) ∧
    (∀ port data cap len,
      let out : Out := ⟨none, data, len⟩
      let r := onDevice dev out fun dev => ((uartRead host dev port data cap len s).1,
        (uartRead host dev port data cap len s).2.1)
      FailsClean out r ∧ (r.1 = .ok → TailKept cap out r.2)) ∧
    (∀ record, FailsClean record (onDevice dev record fun dev =>
      ((bleGetCap host dev record s).ret, (bleGetCap host dev record s).out))) ∧
    (∀ out cap,
      let r := onDevice dev out fun dev => ((bleReadEvent host dev out cap s).1, (bleReadEvent host dev out cap s).2.1)
      FailsClean out r ∧ (r.1 = .ok → TailKept cap out r.2)) ∧
    (∀ hint, FailsClean hint
      (onDevice dev hint fun dev => ((readHint host dev hint s).1, (readHint host dev hint s).2.1))) := by
  refine ⟨?_, ?_, ?_, ?_, ?_, ?_, ?_, ?_, ?_⟩
  · intro info
    exact onDevice_failsClean (fun dev => query_failsClean _ host 8 parseDevInfo dev info s) dev
  · intro caps
    exact onDevice_failsClean (fun dev => query_failsClean _ host 8 parseCaps dev caps s) dev
  · intro payload payloadLen response cap len out r
    constructor
    · exact onDevice_failsClean (fun dev => transact_failsClean host dev _ 0 _ _ payload payloadLen out cap s) dev
    · exact onDevice_ok (fun dev => transact_tailKept host dev _ 0 _ _ payload payloadLen out cap s) dev
  · intro port record
    exact onDevice_failsClean (fun dev => query_failsClean _ host 12 parsePortCap dev record s) dev
  · intro port stats
    exact onDevice_failsClean (fun dev => query_failsClean _ host 20 parseUartStats dev stats s) dev
  · intro port data cap len out r
    constructor
    · exact onDevice_failsClean (fun dev => uartRead_failsClean host dev port data cap len s) dev
    · apply onDevice_ok
      intro dev
      exact tailKept_of_receive (acceptData_stores port cap) (uartRead_cases host dev port data cap len s)
  · intro record
    exact onDevice_failsClean (fun dev => query_failsClean _ host 8 parseBleCap dev record s) dev
  · intro out cap r
    constructor
    · exact onDevice_failsClean (fun dev => bleReadEvent_failsClean host dev out cap s) dev
    · apply onDevice_ok
      intro dev
      exact tailKept_of_receive (acceptEvent_stores cap) (bleReadEvent_cases host dev out cap s)
  · intro hint
    exact onDevice_failsClean (fun dev => readHint_failsClean host dev hint s) dev

end UsbMux
