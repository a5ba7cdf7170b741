/-
# What goes out on EP3 OUT

A call offers its frame to EP3 OUT and offers again what a transfer has left
of it. The device sees the bytes accepted (`accepted`), call after call
(`sent`). They are whole frames as long as no transfer fails with part of its
frame accepted: the driver then gives the frame up, and the next call's frame
starts where the device waits for the rest of it (`frames_out`). That a row of
frames can be cut in one way only (`Frame.eq_of_prefix`) makes this an
equivalence.

Key definitions: `accepted`, `Torn`, `sent`, `Complete`.
Key theorems: `writeLoop_accepted`, `complete_iff`, `frames_out`.
-/
import UsbMux.Spanning
import UsbMux.Calls
import Mathlib.Data.List.TakeDrop

namespace UsbMux

variable {σ : Type}

/-! ### Accepted bytes -/

/-- The bytes accepted on EP3 OUT. -/
def accepted : List Event → Bytes
  | [] => []
  | .bulkIn _ _ :: evs => accepted evs
  | .bulkOut chunk x :: evs => chunk.take x.transferred ++ accepted evs
  | .interruptIn _ _ :: evs => accepted evs

theorem accepted_append : ∀ a b : List Event, accepted (a ++ b) = accepted a ++ accepted b
  | [], _ => rfl
  | .bulkIn _ _ :: a, b => accepted_append a b
  | .bulkOut chunk x :: a, b => by
    rw [List.cons_append, accepted, accepted, accepted_append a b, List.append_assoc]
  | .interruptIn _ _ :: a, b => accepted_append a b

/-- No transfer on EP3 OUT, no byte accepted. -/
theorem accepted_eq_nil : ∀ (evs : List Event), offered evs = [] → accepted evs = []
  | [], _ => rfl
  | .bulkIn _ _ :: evs, h => accepted_eq_nil evs h
  | .bulkOut _ _ :: _, h => by cases h
  | .interruptIn _ _ :: evs, h => accepted_eq_nil evs h

/-- An OUT transfer that ends the write: an error, or no byte accepted. -/
def OutXfer.Failed (x : OutXfer) : Prop := x.ret ≠ .success ∨ x.transferred = 0

/-- A transfer failed before the end of what it was offered. -/
def CutShort (evs : List Event) : Prop :=
  ∃ chunk x, .bulkOut chunk x ∈ evs ∧ x.Failed ∧ x.transferred < chunk.length

/-- A transfer failed when part of the frame, but not all of it, had been
accepted. -/
def Torn (evs : List Event) : Prop := accepted evs ≠ [] ∧ CutShort evs

theorem not_cutShort_nil : ¬CutShort [] := by
  rintro ⟨chunk, x, hmem, -⟩
  cases hmem

theorem cutShort_single {chunk : Bytes} {x : OutXfer} (hx : x.Failed) :
    CutShort [.bulkOut chunk x] ↔ x.transferred < chunk.length := by
  constructor
  · rintro ⟨chunk', x', hmem, -, hlt⟩
    cases List.mem_singleton.mp hmem
    exact hlt
  · intro hlt
    exact ⟨chunk, x, List.mem_singleton_self _, hx, hlt⟩

/-- A transfer that did not fail cuts nothing short. -/
theorem cutShort_cons {chunk : Bytes} {x : OutXfer} {evs : List Event} (hx : ¬x.Failed) :
    CutShort (.bulkOut chunk x :: evs) ↔ CutShort evs := by
  constructor
  · rintro ⟨chunk', x', hmem, hfail, hlt⟩
    rcases List.mem_cons.mp hmem with heq | hmem
    · cases heq
      exact absurd hfail hx
    · exact ⟨chunk', x', hmem, hfail, hlt⟩
  · rintro ⟨chunk', x', hmem, hfail, hlt⟩
    exact ⟨chunk', x', List.mem_cons_of_mem _ hmem, hfail, hlt⟩

theorem not_cutShort_of_offered {evs : List Event} (h : offered evs = []) : ¬CutShort evs := by
  rintro ⟨chunk, x, hmem, -⟩
  obtain ⟨a, b, rfl⟩ := List.append_of_mem hmem
  rw [offered_append] at h
  cases (List.append_eq_nil_iff.mp h).2

theorem cutShort_append {a b : List Event} : CutShort (a ++ b) ↔ CutShort a ∨ CutShort b := by
  constructor
  · rintro ⟨chunk, x, hmem, hfail, hlt⟩
    rcases List.mem_append.mp hmem with hmem | hmem
    · exact .inl ⟨chunk, x, hmem, hfail, hlt⟩
    · exact .inr ⟨chunk, x, hmem, hfail, hlt⟩
  · rintro (⟨chunk, x, hmem, hfail, hlt⟩ | ⟨chunk, x, hmem, hfail, hlt⟩)
    · exact ⟨chunk, x, List.mem_append_left _ hmem, hfail, hlt⟩
    · exact ⟨chunk, x, List.mem_append_right _ hmem, hfail, hlt⟩

/-! ### A frame -/

/-- **The write loop** gets a prefix of what is left of the frame accepted:
all of it, unless a transfer fails before its end. -/
theorem writeLoop_accepted (host : Host σ) (dev : Device) (frame : Bytes) (frameLen offset : ℕ) (s : σ) :
    let r := writeLoop host dev frame frameLen offset s
    let rest := (frame.drop offset).take (frameLen - offset)
    ∃ evs, Makes host dev.timeoutMs s evs r.2 ∧ accepted evs <+: rest ∧
      (CutShort evs ↔ accepted evs ≠ rest) ∧ (r.1 = .ok → ¬CutShort evs) := by
  fun_induction writeLoop host dev frame frameLen offset s with
  | case1 offset s hlt chunk x s₁ hx hret =>
    -- an error, perhaps with some bytes accepted
    refine ⟨[.bulkOut chunk x], ⟨s₁, hx, rfl⟩, ?_, ?_, fun h => absurd h (mapLibusbError_ne_ok _)⟩
    · rw [accepted, accepted, List.append_nil]
      exact List.take_prefix _ _
    · rw [cutShort_single (.inl hret), accepted, accepted, List.append_nil]
      rw [ne_eq, List.take_eq_self_iff, not_le]
  | case2 offset s hlt chunk x s₁ hx hret hzero =>
    refine ⟨[.bulkOut chunk x], ⟨s₁, hx, rfl⟩, ?_, ?_, fun h => by cases h⟩
    · rw [accepted, accepted, List.append_nil]
      exact List.take_prefix _ _
    · rw [cutShort_single (.inr hzero), accepted, accepted, List.append_nil]
      rw [ne_eq, List.take_eq_self_iff, not_le]
  | case3 offset s hlt chunk x s₁ hx hret hzero ih =>
    obtain ⟨evs, hm, hpre, hcut, hok⟩ := ih
    have hgood : ¬x.Failed := not_or.mpr ⟨hret, hzero⟩
    have hrest : (frame.drop offset).take (frameLen - offset) = chunk.take x.transferred ++
        (frame.drop (offset + x.transferred)).take (frameLen - (offset + x.transferred)) := by
      have hdrop : chunk.drop x.transferred =
          (frame.drop (offset + x.transferred)).take (frameLen - (offset + x.transferred)) := by
        rw [List.drop_take, List.drop_drop, Nat.sub_sub]
      rw [← hdrop, List.take_append_drop]
    refine ⟨.bulkOut chunk x :: evs, ⟨s₁, hx, hm⟩, ?_, ?_, fun h => ?_⟩
    · rw [hrest, accepted]
      exact (List.prefix_append_right_inj _).mpr hpre
    · rw [cutShort_cons hgood, hcut, hrest, accepted]
      exact not_congr (List.append_cancel_left_eq ..).symm.to_iff
    · rw [cutShort_cons hgood]
      exact hok h
  | case4 offset s hlt =>
    refine ⟨[], rfl, List.nil_prefix, ?_, fun _ => not_cutShort_nil⟩
    have hrest : (frame.drop offset).take (frameLen - offset) = [] := by
      rw [Nat.sub_eq_zero_of_le (Nat.le_of_not_lt hlt), List.take_zero]
    rw [hrest]
    exact iff_of_false not_cutShort_nil (not_not.mpr rfl)

/-- What a call has accepted of the frame it built. -/
theorem writeFrame_accepted (host : Host σ) (dev : Device) (s : σ) {h : Header} {payload : Option Bytes}
    {payloadLen : ℕ} (hb : (buildFrame (host.stack s 512) 512 0 h payload payloadLen).ret = .ok) :
    let b := buildFrame (host.stack s 512) 512 0 h payload payloadLen
    let w := writeFrame host dev b.dst b.frameLen s
    ∃ evs, ∃ f : Frame, Makes host dev.timeoutMs s evs w.2 ∧ f.bytes = b.dst.take b.frameLen ∧
      accepted evs <+: f.bytes ∧ (CutShort evs ↔ accepted evs ≠ f.bytes) ∧ (w.1 = .ok → ¬CutShort evs) := by
  intro b w
  have hstack : 512 ≤ (host.stack s 512).length := (host.length_stack s 512).ge
  have hfits := (buildFrame_ok hstack).mp hb
  have hp := hfits.2.1
  have hlen : b.frameLen = 24 + payloadLen := by rw [show b = _ from buildFrame_eq 0 h hfits hstack]
  obtain ⟨htake, hdec⟩ := decodeHeader_built 0 h hfits hstack
  have htotal : (h.forLen payloadLen).totalLen.toNat = 24 + payloadLen := by
    have hpl := forLen_payloadLen (h := h) hp
    rw [(forLen_sealed (h := h) hp).totalLen_eq (by omega), hpl]
  have hw : w = writeLoop host dev b.dst b.frameLen 0 s := if_neg (by simp only [MAX_FRAME_LEN]; omega)
  obtain ⟨evs, hm, hpre, hcut, hok⟩ := writeLoop_accepted host dev b.dst b.frameLen 0 s
  rw [List.drop_zero, Nat.sub_zero] at hpre hcut
  rw [← hw] at hm hok
  exact ⟨evs, ⟨b.dst.take b.frameLen, h.forLen payloadLen, hdec, by rw [htake, hlen, htotal]⟩, hm, rfl, hpre, hcut, hok⟩

/-! ### Frames in a row -/

/-- Frames that start alike are alike: the header says how long they are. -/
theorem Frame.eq_of_prefix {f g : Frame} {b : Bytes} (hf : f.bytes <+: b) (hg : g.bytes <+: b) : f.bytes = g.bytes := by
  have hf24 := f.le_length
  have hg24 := g.le_length
  have h24 : f.bytes.take 24 = g.bytes.take 24 := by
    obtain ⟨f', hf'⟩ := hf
    obtain ⟨g', hg'⟩ := hg
    calc f.bytes.take 24 = (f.bytes ++ f').take 24 := (List.take_append_of_le_length hf24).symm
      _ = (g.bytes ++ g').take 24 := by rw [hf', hg']
      _ = g.bytes.take 24 := List.take_append_of_le_length hg24
  have hheader : f.header = g.header := by
    have hdec := f.decodes
    rw [decodeHeader_congr h24 hf24 hg24, g.decodes] at hdec
    exact (Except.ok.inj hdec).symm
  have hlen : f.bytes.length = g.bytes.length := by rw [f.length_eq, g.length_eq, hheader]
  exact List.prefix_of_prefix_length_le hf hg hlen.le |>.eq_of_length hlen

/-- The bytes are a row of whole frames. -/
def Complete (b : Bytes) : Prop := ∃ frames, b = stream frames

theorem complete_nil : Complete [] := ⟨[], rfl⟩

theorem Complete.append {a b : Bytes} (ha : Complete a) (hb : Complete b) : Complete (a ++ b) := by
  obtain ⟨fs, rfl⟩ := ha
  obtain ⟨gs, rfl⟩ := hb
  refine ⟨fs ++ gs, ?_⟩
  unfold stream
  rw [List.map_append, List.flatten_append]

/-- A row of frames can be cut in one way only. -/
theorem Complete.rest : ∀ {fs : List Frame} {b : Bytes}, Complete (stream fs ++ b) → Complete b
  | [], _, h => h
  | f :: fs, b, ⟨gs, hgs⟩ => by
    rw [stream_cons, List.append_assoc] at hgs
    have h24 := f.le_length
    rcases gs with _ | ⟨g, gs⟩
    · have hlen := congrArg List.length hgs
      rw [List.length_append, show stream [] = [] from rfl, List.length_nil] at hlen
      omega
    · rw [stream_cons] at hgs
      have hfg : f.bytes = g.bytes := Frame.eq_of_prefix ⟨_, hgs⟩ ⟨_, rfl⟩
      rw [hfg] at hgs
      exact Complete.rest ⟨gs, List.append_cancel_left hgs⟩

/-- A prefix of a frame is complete when it is empty or all of it. -/
theorem prefix_complete_iff {b : Bytes} {f : Frame} (hb : b <+: f.bytes) : Complete b ↔ b = [] ∨ b = f.bytes := by
  constructor
  · rintro ⟨gs, rfl⟩
    rcases gs with _ | ⟨g, gs⟩
    · exact .inl rfl
    · have hg : g.bytes <+: stream (g :: gs) := ⟨stream gs, rfl⟩
      have hgf : g.bytes = f.bytes := Frame.eq_of_prefix (hg.trans hb) List.prefix_rfl
      have hlen := hb.length_le
      rw [stream_cons, List.length_append, hgf] at hlen
      have hnil : stream gs = [] := List.length_eq_zero_iff.mp (by omega)
      rw [stream_cons, hgf, hnil, List.append_nil]
      exact .inr rfl
  · rintro (rfl | rfl)
    · exact complete_nil
    · exact ⟨[f], (List.append_nil _).symm⟩

/-! ### Calls -/

/-- A call that offers nothing tears nothing. -/
theorem complete_of_offered {evs : List Event} (h : offered evs = []) : Complete (accepted evs) ↔ ¬Torn evs := by
  have hnil := accepted_eq_nil evs h
  rw [hnil]
  exact iff_of_true complete_nil fun ⟨hne, _⟩ => hne hnil

theorem complete_of_frame {evs : List Event} {f : Frame} (hpre : accepted evs <+: f.bytes)
    (hcut : CutShort evs ↔ accepted evs ≠ f.bytes) : Complete (accepted evs) ↔ ¬Torn evs := by
  unfold Torn
  rw [prefix_complete_iff hpre, hcut]
  tauto

/-- What a call does on EP3 OUT: it offers nothing, or one frame. -/
theorem transact_accepted (host : Host σ) (dev : Device) (chType chId msgType opcode : UInt8)
    (payload : Option Bytes) (payloadLen : ℕ) (out : Out) (rspCapacity : ℕ) (s : σ) :
    let r := transact host dev chType chId msgType opcode payload payloadLen out rspCapacity s
    ∃ evs, Makes host dev.timeoutMs s evs r.state ∧ (Complete (accepted evs) ↔ ¬Torn evs) := by
  intro r
  have hcases := (transact_cases host dev chType chId msgType opcode payload payloadLen out rspCapacity s).2
  rcases hcases with ⟨-, -, -, hs⟩ | ⟨hb, -, -, -, hs⟩ | ⟨hb, -, hr⟩
  · exact ⟨[], hs.symm, complete_of_offered rfl⟩
  · obtain ⟨evs, f, hm, -, hpre, hcut, -⟩ := writeFrame_accepted host (nextSeq dev).2 s hb
    exact ⟨evs, hs ▸ hm, complete_of_frame hpre hcut⟩
  · obtain ⟨wevs, f, hwm, -, hpre, hcut, -⟩ := writeFrame_accepted host (nextSeq dev).2 s hb
    obtain ⟨evs, hm, hoff, -⟩ := receive_spec host (nextSeq dev).2
      (acceptResponse _ chType chId opcode rspCapacity) out _
    obtain ⟨-, hr⟩ := Prod.mk.inj hr
    obtain ⟨-, hs⟩ := Prod.mk.inj hr
    have hacc : accepted (wevs ++ evs) = accepted wevs := by
      rw [accepted_append, accepted_eq_nil evs hoff, List.append_nil]
    have hcut' : CutShort (wevs ++ evs) ↔ CutShort wevs := by
      rw [cutShort_append]
      exact or_iff_left (not_cutShort_of_offered hoff)
    refine ⟨wevs ++ evs, hs ▸ hwm.append hm, complete_of_frame (f := f) ?_ ?_⟩
    · rwa [hacc]
    · rwa [hacc, hcut']

theorem Call.run_accepted (host : Host σ) (dev : Device) (s : σ) (c : Call) :
    ∃ evs, Makes host dev.timeoutMs s evs (c.run host dev s).state ∧ (Complete (accepted evs) ↔ ¬Torn evs) := by
  cases c with
  | transact chType chId msgType opcode payload payloadLen out cap => exact transact_accepted host dev ..
  | bleTransact opcode payload payloadLen rspPayload cap rspLen => exact transact_accepted host dev ..
  | uartWrite port data len =>
    show ∃ evs, Makes host dev.timeoutMs s evs (UsbMux.uartWrite host dev port data len s).2.2 ∧ _
    rcases uartWrite_cases host dev port data len s with ⟨-, hr⟩ | ⟨-, ⟨-, hr⟩ | ⟨hb, hr⟩⟩
    · exact ⟨[], by rw [hr]; exact rfl, complete_of_offered rfl⟩
    · exact ⟨[], by rw [hr]; exact rfl, complete_of_offered rfl⟩
    · obtain ⟨evs, f, hm, -, hpre, hcut, -⟩ := writeFrame_accepted host (UsbMux.nextSeq dev).2 s hb
      exact ⟨evs, by rw [hr]; exact hm, complete_of_frame hpre hcut⟩
  | uartRead port data cap len =>
    obtain ⟨evs, hm, hoff⟩ := reader_offers (uartRead_cases host dev port data cap len s)
    exact ⟨evs, hm, complete_of_offered hoff⟩
  | bleReadEvent out cap =>
    obtain ⟨evs, hm, hoff⟩ := reader_offers (bleReadEvent_cases host dev out cap s)
    exact ⟨evs, hm, complete_of_offered hoff⟩
  | nextSeq => exact ⟨[], rfl, complete_of_offered rfl⟩

/-- **A step leaves whole frames** exactly when it tears none. -/
theorem complete_iff (host : Host σ) (dev : Device) (s : σ) (c : Call) :
    Complete (accepted (c.step host dev s).events) ↔ ¬Torn (c.step host dev s).events := by
  obtain ⟨evs, hm, hiff⟩ := c.run_accepted host.logged dev (s, [])
  have hevs : (c.step host dev s).events = evs := hm.log
  rw [hevs]
  exact hiff

/-! ### Runs -/

/-- The bytes accepted on EP3 OUT in the steps. -/
def sent (steps : List (Step σ)) : Bytes := (steps.map fun st => accepted st.events).flatten

theorem sent_cons (st : Step σ) (steps : List (Step σ)) : sent (st :: steps) = accepted st.events ++ sent steps := rfl

/-- **EP3 OUT carries whole frames**, at the end of every call of a run,
exactly when no transfer fails with part of its frame accepted. -/
theorem frames_out (host : Host σ) (calls : List Call) (dev : Device) (s : σ) :
    (∀ k, Complete (sent ((run host calls dev s).take k))) ↔ ∀ st ∈ run host calls dev s, ¬Torn st.events := by
  induction calls generalizing dev s with
  | nil =>
    constructor
    · intro _ st hst
      cases hst
    · intro _ k
      rw [show run host [] dev s = [] from rfl, List.take_nil]
      exact complete_nil
  | cons c cs ih =>
    rw [run_cons]
    have hstep := complete_iff host dev s c
    set st := c.step host dev s
    have hrest := ih st.reply.dev st.reply.state
    set rest := run host cs st.reply.dev st.reply.state
    constructor
    · intro hall
      have hfirst : Complete (accepted st.events) := by
        have h1 := hall 1
        rw [List.take_succ_cons, List.take_zero, sent_cons] at h1
        rwa [show sent ([] : List (Step σ)) = [] from rfl, List.append_nil] at h1
      have hmore : ∀ k, Complete (sent (rest.take k)) := by
        intro k
        have hk := hall (k + 1)
        rw [List.take_succ_cons, sent_cons] at hk
        obtain ⟨fs, hfs⟩ := hfirst
        rw [hfs] at hk
        exact hk.rest
      exact List.forall_mem_cons.mpr ⟨hstep.mp hfirst, hrest.mp hmore⟩
    · intro hall k
      obtain ⟨hfirst, hmore⟩ := List.forall_mem_cons.mp hall
      cases k with
      | zero => exact complete_nil
      | succ k =>
        rw [List.take_succ_cons, sent_cons]
        exact (hstep.mpr hfirst).append (hrest.mpr hmore k)

/-- A host whose OUT transfers turn out as listed. -/
def Host.ofScript (stack : Stack) : Host (List OutXfer) where
  bulkIn _ _ s := (⟨.timeout, []⟩, s)
  bulkOut _ chunk s := (⟨(s.headD ⟨.timeout, 0⟩).ret, min (s.headD ⟨.timeout, 0⟩).transferred chunk.length⟩, s.tail)
  interruptIn _ _ s := (⟨.timeout, []⟩, s)
  stack _ n := stack.bytes n
  bulkIn_le _ _ _ := Nat.zero_le _
  bulkOut_le _ _ _ := Nat.min_le_right _ _
  interruptIn_le _ _ _ := Nat.zero_le _
  length_stack _ n := stack.length_bytes n

/-- Five bytes of a frame are accepted, then a transfer times out. -/
theorem timeout_tears :
    ¬∀ (host : Host (List OutXfer)) (calls : List Call) (dev : Device) (s : List OutXfer) (k : ℕ),
      Complete (sent ((run host calls dev s).take k)) := by
  intro hall
  let st := (Call.uartWrite 0 (some [0x11]) 1).step (Host.ofScript Stack.zero) freshDevice
    [⟨.success, 5⟩, ⟨.timeout, 0⟩]
  have hsent : Complete (accepted st.events) := by
    have h1 := hall (Host.ofScript Stack.zero) [.uartWrite 0 (some [0x11]) 1] freshDevice
      [⟨.success, 5⟩, ⟨.timeout, 0⟩] 1
    rwa [run_cons, List.take_succ_cons, List.take_zero, sent_cons, show sent _ = [] from rfl, List.append_nil] at h1
  have hshort : (accepted st.events).length = 5 := by decide +kernel
  obtain ⟨frames, hframes⟩ := hsent
  rw [hframes] at hshort
  -- the first frame alone is longer
  rcases frames with _ | ⟨f, fs⟩
  · cases hshort
  · have h24 := f.le_length
    rw [stream_cons, List.length_append] at hshort
    omega

end UsbMux
