/-
# Sessions

The tool is run again and again over one link. From a link at rest to a
service no session leaves a frame behind, whatever its arguments are, so each
is a run of calls of the service (`sessions_at_rest`).

But each session opens the device anew, and with every open the counter
starts at 1: the first request of one session bears the number of the first
request of the session before. So a session takes for its own an answer that
the one before has left on the link. Once frames are left over, `heartbeat`
lags (`heartbeats_lag`): the first sessions print what they make of these,
and from then on each prints, and exits with, what the service has answered
as many sessions ago. The queue never gets shorter. A session whose text does
not fit a frame is refused before it sends, and does not count.

Key definitions: `Session`, `runSessions`, `Service.Serves`, `Opened`,
`heartbeatSession`, `textFits`.
Key theorems: `Performs.direct`, `sessions_at_rest`,
`heartbeatSession_refines`, `heartbeats_lag`.
-/
import UsbMux.Main

namespace UsbMux

open Buffer

variable {σ δ : Type}

/-! ### Sessions with a service -/

/-- A run of the tool: how the open goes, the arguments and the clock. -/
structure Session where
  ohost : OpenHost
  argv : List Bytes
  clock : List ℤ

/-- The session ends and goes through the driver's calls; `debug-xfer` does
not. -/
def Session.Calls (x : Session) : Prop :=
  ClockEnds (secondsOf x.argv[2]?) x.clock ∧ x.argv[1]? ≠ some Verb.debugXfer.name

/-- Sessions one after the other: their exit codes, and the host. -/
def runSessions (host : Host σ) : List Session → σ → Option (List ℕ × σ)
  | [], s => some ([], s)
  | x :: xs, s => (main host x.ohost x.argv x.clock s).bind fun r =>
    (runSessions host xs r.state).map fun (codes, s) => (r.code :: codes, s)

/-- `Performs`, with the service itself. -/
def Service.Performs (S : Service δ) : Device → δ → List (Call × Result) → Device → δ → Prop
  | dev, d, [], dev', d' => dev' = dev ∧ d' = d
  | dev, d, (c, ret) :: calls, dev', d' =>
    c.Proper ∧ (c.direct S dev d).ret = ret ∧ S.Performs (c.direct S dev d).dev (c.direct S dev d).state calls dev' d'

/-- What a session with exit code `code` may have done to the service:
nothing, and then it failed, or calls on the device it opened. -/
def Service.Serve (S : Service δ) (x : Session) (d : δ) (code : ℕ) (d' : δ) : Prop :=
  code ≠ 0 ∧ d' = d ∨
    ∃ dev dev' calls, (muxOpen x.ohost (some defaultOpenOptions)).2.1 = some dev ∧ S.Performs dev d calls dev' d' ∧
      (code = 0 → calls ≠ [] ∧ ∀ y ∈ calls, y.1.draws = true → y.2 = .ok)

/-- Sessions one after the other. -/
def Service.Serves (S : Service δ) : List Session → δ → List ℕ → δ → Prop
  | [], d, codes, d' => codes = [] ∧ d' = d
  | x :: xs, d, codes, d' => ∃ code rest d₁, codes = code :: rest ∧ S.Serve x d code d₁ ∧ S.Serves xs d₁ rest d'

section AtRest

variable (stack : Stack) (W : Transport) (S : Service δ)

/-- A call over a link at rest. -/
theorem Call.run_direct {s : Link δ} (hs : s.AtRest) (dev : Device) {c : Call} (hc : c.Proper) :
    let r := c.run (Link.host stack W S.react) dev s
    let r' := c.direct S dev s.device
    r.ret = r'.ret ∧ r.dev = r'.dev ∧ r.state.AtRest ∧ r.state.device = r'.state := by
  intro r r'
  have hshows := Call.run_shows stack W S.react hs.shows dev hc
  rw [show c.exec S.react dev ⟨[], s.device⟩ = _ from c.exec_direct S dev s.device] at hshows
  obtain ⟨hret, -, hdev, hstate⟩ := hshows
  obtain ⟨hrest, hdevice⟩ := hstate.atRest
  exact ⟨hret, hdev, hrest, hdevice⟩

/-- **Calls performed over a link at rest** are performed with the service,
and leave the link at rest. -/
theorem Performs.direct {calls : List (Call × Result)} {dev dev' : Device} {s s' : Link δ} (hs : s.AtRest)
    (h : Performs (Link.host stack W S.react) dev s calls dev' s') :
    S.Performs dev s.device calls dev' s'.device ∧ s'.AtRest := by
  induction calls generalizing dev s with
  | nil =>
    obtain ⟨rfl, rfl⟩ := h
    exact ⟨⟨rfl, rfl⟩, hs⟩
  | cons x calls ih =>
    obtain ⟨c, ret⟩ := x
    obtain ⟨hc, hret, hcalls⟩ := h
    obtain ⟨hret', hdev, hrest, hdevice⟩ := c.run_direct stack W S hs dev hc
    obtain ⟨hperf, hs'⟩ := ih hrest hcalls
    rw [hdev, hdevice] at hperf
    exact ⟨⟨hc, hret'.symm.trans hret, hperf⟩, hs'⟩

/-- **No session leaves a frame behind.** Whatever the arguments of the
sessions are, over a link at rest to a service each ends as calls of the
service do, made once and in order; it exits with 0 only if these were
carried out; and the link is at rest again. -/
theorem sessions_at_rest {s : Link δ} (hs : s.AtRest) (xs : List Session) (hxs : ∀ x ∈ xs, x.Calls) :
    ∃ codes s', runSessions (Link.host stack W S.react) xs s = some (codes, s') ∧ s'.AtRest ∧
      S.Serves xs s.device codes s'.device := by
  induction xs generalizing s with
  | nil => exact ⟨[], s, rfl, hs, rfl, rfl⟩
  | cons x xs ih =>
    obtain ⟨⟨hclock, hname⟩, hrest⟩ := List.forall_mem_cons.mp hxs
    obtain ⟨r, hr, hends⟩ := main_calls (Link.host stack W S.react) x.ohost x.argv hclock s hname
    obtain ⟨hat, hserve⟩ : r.state.AtRest ∧ S.Serve x s.device r.code r.state.device := by
      rcases hends with ⟨hcode, hstate⟩ | ⟨dev, o, hopen, ⟨calls, hperf, -, hok⟩, hcode, hstate⟩
      · rw [hstate]
        exact ⟨hs, .inl ⟨hcode, rfl⟩⟩
      · obtain ⟨hdirect, hat⟩ := hperf.direct stack W S hs
        rw [hcode, hstate]
        exact ⟨hat, .inr ⟨dev, o.dev, calls, hopen, hdirect, hok⟩⟩
    obtain ⟨codes, s', hsessions, hat', hserves⟩ := ih hat hrest
    refine ⟨r.code :: codes, s', ?_, hat', r.code, codes, r.state.device, rfl, hserve, hserves⟩
    unfold runSessions
    rw [hr, Option.bind_some, hsessions]
    rfl

end AtRest

/-- Two sessions, of which one has no device. -/
theorem sessions_at_rest_two :
    let found : OpenHost := ⟨true, .success, 0, some 0, 1, .success, .success⟩
    let xs : List Session := [⟨found, [text "tool", text "probe"], [0, 6]⟩,
      ⟨{ found with handle := none }, [text "tool", text "ble-scan"], [0, 6]⟩]
    ∃ codes s', runSessions (Link.host Stack.zero Transport.bytewise zeroService.react) xs ⟨[], [], 0, 0⟩ =
        some (codes, s') ∧ s'.AtRest ∧ zeroService.Serves xs 0 codes s'.device := by
  intro found xs
  have hclock : ClockEnds 5 [0, 6] := ⟨0, [6], rfl, 6, by decide, by decide⟩
  have hxs : ∀ x ∈ xs, x.Calls := by
    intro x hx
    simp only [xs, List.mem_cons, List.not_mem_nil, or_false] at hx
    obtain rfl | rfl := hx
    · exact ⟨hclock, by decide⟩
    · exact ⟨hclock, by decide⟩
  exact sessions_at_rest Stack.zero Transport.bytewise zeroService ⟨rfl, rfl⟩ xs hxs

/-! ### A session of heartbeat -/

/-- The device comes from an open. -/
def Opened (dev : Device) : Prop := ∃ ohost options, (muxOpen ohost options).2.1 = some dev

theorem Opened.nextSeq {dev : Device} (h : Opened dev) : dev.nextSeq = 1 := by
  obtain ⟨ohost, options, hopen⟩ := h
  rcases muxOpen_device ohost options with hnone | ⟨_, -, hsome⟩
  · rw [hnone] at hopen
    cases hopen
  · rw [hsome] at hopen
    cases hopen
    rfl

/-- A session of `heartbeat`: the exit code and the lines printed. -/
def heartbeatSession (host : Host σ) (x : Device × Bytes) (s : σ) : (ℕ × List Line) × σ :=
  let r := cmdHeartbeat host x.1 x.2 s
  ((r.code, r.lines), r.state)

/-- A session with the service itself. -/
def Service.heartbeatSession (S : Service δ) (x : Device × Bytes) (d : δ) : (ℕ × List Line) × δ := S.heartbeat 1 x.2 d

/-- A frame that answers no first heartbeat fails the session that takes it. -/
theorem heartbeatOf_proto (buf : Bytes) {f : Frame}
    (hf : ¬(f.header.msgType = MsgType.rsp.code ∧ f.header.refSeq = 1 ∧ f.header.chType = ChannelType.sys.code ∧
      f.header.chId = 0 ∧ f.header.opcode = SYS_HEARTBEAT)) :
    heartbeatOf 1 buf f = (1, [.failed .heartbeat .errProto]) := by
  unfold heartbeatOf
  rw [acceptResponse_proto.2 hf]
  rfl

/-! ### Frames left over -/

variable (stack : Stack) (W : Transport)

/-- The link shows frames left over, which print this. -/
def Lags (buf : Bytes) (s : Link δ) (q : List (ℕ × List Line) × δ) : Prop :=
  ∃ t : Channel δ, s.Shows t ∧ t.pending.map (heartbeatOf 1 buf) = q.1 ∧ t.device = q.2

/-- The text of a session fits a frame. -/
def textFits (x : Device × Bytes) : Bool := x.2.length ≤ 488

/-- A session whose text does not. -/
def textRefused : ℕ × List Line := (1, [.failed .heartbeat .errOverflow])

/-- **A session** is one with the service itself, behind a queue; a text that
does not fit is refused. -/
theorem heartbeatSession_refines (S : Service δ) :
    Machine.Refines (fun x : Device × Bytes => Opened x.1) (Lags (stack.bytes 128))
      (heartbeatSession (Link.host stack W S.react))
      (Machine.skip textFits textRefused (Machine.delay S.heartbeatSession)) := by
  refine Machine.Refines.skip ?_ ?_
  · intro x hx s q hlags
    obtain ⟨t, hshows, hpending, hdevice⟩ := hlags
    obtain ⟨pending, d⟩ := t
    obtain ⟨lines, d'⟩ := q
    obtain rfl : d = d' := hdevice
    obtain rfl : pending.map (heartbeatOf 1 (stack.bytes 128)) = lines := hpending
    obtain ⟨dev, text⟩ := x
    obtain ⟨hdev, hfits⟩ := hx
    have htext : text.length ≤ 488 := of_decide_eq_true hfits
    have hanswer := heartbeatOf_answer S dev.nextSeq (stack.bytes 128) text d
    rcases pending with _ | ⟨f, fs⟩
    · obtain ⟨hout, hnext⟩ := cmdHeartbeat_takes stack W S hshows dev htext (List.nil_append _)
      rw [hdev.nextSeq] at hout hnext hanswer
      exact ⟨hout.trans hanswer, _, hnext, rfl, rfl⟩
    · obtain ⟨hout, hnext⟩ := cmdHeartbeat_takes stack W S hshows dev htext (List.cons_append ..)
      rw [hdev.nextSeq] at hout hnext hanswer
      refine ⟨hout, _, hnext, ?_, rfl⟩
      rw [List.map_append, List.map_singleton, hanswer]
      rfl
  · intro x _ hfits s q hlags
    obtain ⟨t, hshows, hpending, hdevice⟩ := hlags
    have htext : ¬x.2.length ≤ 488 := fun h => hfits (decide_eq_true h)
    obtain ⟨hout, hnext⟩ := cmdHeartbeat_refused stack W S hshows x.1 htext
    exact ⟨hout, t, hnext, hpending, hdevice⟩

/-- **Sessions lag.** Run `heartbeat` again and again over a link that shows
frames left over. A session whose text does not fit a frame is refused and
makes no difference. Of the others the first print what they make of the
frames, and each one after prints and exits as the session with the service
itself did that was as many before; and as many frames as at the start are
left over for the next. -/
theorem heartbeats_lag (S : Service δ) {s : Link δ} {t : Channel δ} (h : s.Shows t) (sessions : List (Device × Bytes))
    (hsessions : ∀ x ∈ sessions, Opened x.1) :
    let step := heartbeatSession (Link.host stack W S.react)
    let sent := sessions.filter textFits
    Machine.outputs step sessions s = Machine.weave textFits textRefused sessions
        ((t.pending.map (heartbeatOf 1 (stack.bytes 128)) ++
          Machine.outputs S.heartbeatSession sent t.device).take sent.length) ∧
      ∃ t' : Channel δ, (Machine.after step sessions s).Shows t' ∧ t'.pending.length = t.pending.length ∧
        t'.device = Machine.after S.heartbeatSession sent t.device := by
  intro step sent
  obtain ⟨houts, t', hshows, hpending, hdevice⟩ := (heartbeatSession_refines stack W S).run hsessions
    (show Lags (stack.bytes 128) s (t.pending.map (heartbeatOf 1 (stack.bytes 128)), t.device) from ⟨t, h, rfl, rfl⟩)
  obtain ⟨hskip, hskipAfter⟩ := Machine.outputs_skip textFits textRefused (Machine.delay S.heartbeatSession) sessions
    (t.pending.map (heartbeatOf 1 (stack.bytes 128)), t.device)
  obtain ⟨hqueue, hqueueAfter⟩ := Machine.outputs_delay S.heartbeatSession sent
    (t.pending.map (heartbeatOf 1 (stack.bytes 128))) t.device
  rw [hskipAfter] at hpending hdevice
  refine ⟨houts.trans (hskip.trans (congrArg _ hqueue)), t', hshows, ?_, ?_⟩
  · have hlen := congrArg List.length hpending
    rw [hqueueAfter] at hlen
    simpa only [List.length_map, List.length_drop, List.length_append, Machine.length_outputs, Nat.add_sub_cancel]
      using hlen
  · rw [hdevice, hqueueAfter]

/-- An event is left over; of three sessions the second is refused, and the
last prints the echo of the first one's text. -/
theorem heartbeats_lag_event :
    let s : Link ℕ := ⟨[], eventFrame.events, 0, 0⟩
    let long : Bytes := List.replicate 489 0x62
    let sessions : List (Device × Bytes) := [(freshDevice, [0x61]), (freshDevice, long), (freshDevice, [0x63])]
    Machine.outputs (heartbeatSession (Link.host Stack.zero Transport.bytewise echoService.react)) sessions s =
      [(1, [.failed .heartbeat .errProto]), (1, [.failed .heartbeat .errOverflow]), (0, [.heartbeat 1 [0x61]])] := by
  intro s long sessions
  have hlong : long.length = 489 := List.length_replicate
  clear_value long
  have hshows : s.Shows ⟨[eventFrame.toFrame], 0⟩ := ⟨rfl, ⟨[eventFrame], rfl, rfl⟩, rfl⟩
  have hopened : Opened freshDevice := ⟨⟨true, .success, 0, some 0, 0, .success, .success⟩, none, rfl⟩
  have hsessions : ∀ x ∈ sessions, Opened x.1 := by
    intro x hx
    simp only [sessions, List.mem_cons, List.not_mem_nil, or_false] at hx
    obtain rfl | rfl | rfl := hx
    · exact hopened
    · exact hopened
    · exact hopened
  have hlag := (heartbeats_lag Stack.zero Transport.bytewise echoService hshows sessions hsessions).1
  have hevent : heartbeatOf 1 (Stack.zero.bytes 128) eventFrame.toFrame = (1, [.failed .heartbeat .errProto]) :=
    heartbeatOf_proto _ (by decide +kernel)
  have hsent : sessions.filter textFits = [(freshDevice, [0x61]), (freshDevice, [0x63])] := by
    simp [sessions, textFits, hlong]
  have hweave : ∀ a b, Machine.weave textFits textRefused sessions [a, b] = [a, textRefused, b] := by
    intro a b
    simp [sessions, textFits, hlong, Machine.weave]
  rw [List.map_singleton, hevent, hsent] at hlag
  exact hlag.trans (hweave _ _)

end UsbMux
