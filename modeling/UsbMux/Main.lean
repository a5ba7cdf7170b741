/-
# The tool

`main` of `ch32v208-mux-cli.c`: it opens the device, carries out the command
that its first argument names, and closes the device. The arguments are
looked at only after the device was opened, so a bad command line is one
(exit code 2) only where there is a device (`main_usage`). Whatever the
command does, the close gives back all that the open has taken
(`main_releases`), and the tool exits with 0 only if every request it made
was carried out (`main_succeeds`).

Key definitions: `Verb`, `Verb.run`, `main`, `CommandLine`.
Key theorems: `main_cases`, `main_calls`, `main_usage`, `main_releases`,
`main_succeeds`.
-/
import UsbMux.Scan
import UsbMux.Loopback
import UsbMux.Balance
import UsbMux.DebugXfer

namespace UsbMux

variable {σ : Type}

/-! ### The program -/

/-- A string literal of the program, up to its NUL. -/
def text (s : String) : Bytes := s.toList.map fun c => UInt8.ofNat c.toNat

inductive Verb
  | probe | debugXfer | heartbeat | uartCap | uartOpen | uartLoopback | uartClose | bleScan
  deriving DecidableEq, Repr

def Verb.name : Verb → Bytes
  | probe => text "probe"
  | debugXfer => text "debug-xfer"
  | heartbeat => text "heartbeat"
  | uartCap => text "uart-cap"
  | uartOpen => text "uart-open"
  | uartLoopback => text "uart-loopback"
  | uartClose => text "uart-close"
  | bleScan => text "ble-scan"

/-- The comparisons of `argv[1]`, in order. -/
def Verb.ofName (name : Bytes) : Option Verb :=
  if name = probe.name then some probe
  else if name = debugXfer.name then some debugXfer
  else if name = heartbeat.name then some heartbeat
  else if name = uartCap.name then some uartCap
  else if name = uartOpen.name then some uartOpen
  else if name = uartLoopback.name then some uartLoopback
  else if name = uartClose.name then some uartClose
  else if name = bleScan.name then some bleScan
  else none

/-- How a command ends; what it prints is left to the commands. -/
structure Outcome (σ : Type) where
  code : ℕ
  dev : Device
  state : σ

def Cmd.outcome (r : Cmd σ) : Outcome σ := ⟨r.code, r.dev, r.state⟩

def Loopback.outcome (r : Loopback σ) : Outcome σ := ⟨r.code, r.dev, r.state⟩

/-- The port, if it comes first of so many arguments at most. -/
def portOf (args : List Bytes) (most : ℕ) : Option UInt8 :=
  if args.length = 0 ∨ args.length > most then none else parsePort (args.headD [])

variable (host : Host σ)

/-- The branches of `main`; `args` are those from `argv[2]` on. -/
def Verb.run (dev : Device) (args : List Bytes) (clock : List ℤ) (s : σ) : Verb → Option (Outcome σ)
  | probe => some (cmdProbe host dev s).outcome
  | debugXfer => some (cmdDebugXfer host dev s).outcome
  | heartbeat => some (cmdHeartbeat host dev (args.headD (text "ping")) s).outcome
  | uartCap => some ((portOf args 1).elim ⟨2, dev, s⟩ fun port => (cmdUartCap host dev port s).outcome)
  | uartOpen => some ((portOf args 2).elim ⟨2, dev, s⟩ fun port =>
      (cmdUartOpen host dev port (args[1]?.map baudOf) s).outcome)
  | uartLoopback => some ((portOf args 3).elim ⟨2, dev, s⟩ fun port =>
      (cmdUartLoopback host dev port (args[1]?.map baudOf) (args.getD 2 (text "ch32v208-loopback-0")) s).outcome)
  | uartClose => some ((portOf args 1).elim ⟨2, dev, s⟩ fun port => (cmdUartClose host dev port s).outcome)
  | bleScan =>
    if args.length > 1 then some ⟨2, dev, s⟩ else (cmdBleScan host dev args.head? clock s).map Cmd.outcome

/-- How the program ends: its exit code, the calls that open and close, and
the host. -/
structure Exit (σ : Type) where
  code : ℕ
  calls : List LibusbCall
  state : σ

/-- `main`. An open that returns OK hands out a device. -/
def main (ohost : OpenHost) (argv : List Bytes) (clock : List ℤ) (s : σ) : Option (Exit σ) :=
  if argv.length < 2 then some ⟨2, [], s⟩
  else
    match muxOpen ohost (some defaultOpenOptions) with
    | (.ok, some dev, calls) =>
      match Verb.ofName (argv.getD 1 []) with
      | none => some ⟨2, calls ++ muxClose dev, s⟩
      | some verb => (verb.run host dev (argv.drop 2) clock s).map fun o => ⟨o.code, calls ++ muxClose o.dev, o.state⟩
    | (_, _, calls) => some ⟨1, calls, s⟩

/-! ### Names -/

theorem Verb.ofName_name (verb : Verb) : ofName verb.name = some verb := by
  cases verb <;> decide

theorem Verb.ofName_eq_some {name : Bytes} {verb : Verb} : ofName name = some verb ↔ name = verb.name := by
  refine ⟨fun h => ?_, fun h => h ▸ verb.ofName_name⟩
  unfold ofName at h
  split_ifs at h with h1 h2 h3 h4 h5 h6 h7 h8 <;> cases h <;> assumption

/-! ### The calls of a command -/

theorem Call.run_still (dev : Device) (s : σ) (c : Call) : (c.run host dev s).dev.still = dev.still := by
  rw [c.run_dev]
  split
  · exact nextSeq_still dev
  · rfl

/-- Calls leave the device as it was, but for its counter. -/
theorem Performs.still {host : Host σ} {dev' : Device} {s' : σ} :
    ∀ {calls : List (Call × Result)} {dev : Device} {s : σ},
    Performs host dev s calls dev' s' → dev'.still = dev.still
  | [], _, _, ⟨hdev, _⟩ => by rw [hdev]
  | (c, _) :: _, dev, s, ⟨_, _, hcalls⟩ => hcalls.still.trans (c.run_still host dev s)

/-- A command is a run of calls, and succeeds only if every request among them
was carried out. -/
def RunsCalls (dev : Device) (s : σ) (o : Outcome σ) : Prop :=
  ∃ calls, Performs host dev s calls o.dev o.state ∧ o.code ≤ 1 ∧
    (o.code = 0 → calls ≠ [] ∧ ∀ x ∈ calls, x.1.draws = true → x.2 = .ok)

variable {host} {dev : Device} {s : σ}

/-- A command that makes one request. -/
theorem runsCalls_of_reply {α : Type} {op : Op} {print : α → List Line} {r : Reply σ α} {c : Call}
    (hc : c.Proper) (hr : r.dev = (c.run host dev s).dev ∧ r.state = (c.run host dev s).state ∧
      (r.ret = .ok → (c.run host dev s).ret = .ok)) : RunsCalls host dev s (r.command op print).outcome := by
  obtain ⟨hdev, hstate, hret⟩ := hr
  refine ⟨[(c, (c.run host dev s).ret)], ⟨hc, rfl, ?_, ?_⟩, ?_, fun hcode => ⟨by simp, ?_⟩⟩
  · exact (r.command_dev op print).trans hdev
  · exact (r.command_state op print).trans hstate
  · show (r.command op print).code ≤ 1
    rw [r.command_code_eq]
    split <;> decide
  · intro x hx _
    rw [List.mem_singleton.mp hx]
    exact hret (r.command_code_iff.mp hcode)

theorem cmdHeartbeat_calls (text : Bytes) : RunsCalls host dev s (cmdHeartbeat host dev text s).outcome :=
  runsCalls_of_reply (c := .transact ChannelType.sys.code 0 MsgType.cmd.code SYS_HEARTBEAT (some text) text.length
    ⟨none, some (host.stack s 128), some 0⟩ 128) (proper_some text) ⟨rfl, rfl, fun h => h⟩

theorem cmdUartOpen_calls (port : UInt8) (baud : Option UInt32) :
    RunsCalls host dev s (cmdUartOpen host dev port baud s).outcome :=
  runsCalls_of_reply (c := .transact ChannelType.uartCtrl.code port MsgType.cmd.code UART_OPEN
    (some (lineCodingBytes ⟨baud.getD 115200, 8, 0, 1⟩)) 8 ⟨none, none, none⟩ 0) (proper_some _) ⟨rfl, rfl, fun h => h⟩

theorem cmdUartClose_calls (port : UInt8) : RunsCalls host dev s (cmdUartClose host dev port s).outcome :=
  runsCalls_of_reply (c := .transact ChannelType.uartCtrl.code port MsgType.cmd.code UART_CLOSE none 0
    ⟨none, none, none⟩ 0)
    proper_none ⟨rfl, rfl, fun h => h⟩

theorem cmdUartCap_calls (port : UInt8) : RunsCalls host dev s (cmdUartCap host dev port s).outcome :=
  runsCalls_of_reply (c := .transact ChannelType.uartCtrl.code port MsgType.cmd.code UART_GET_PORT_CAP none 0
      ⟨none, some (host.stack s 12), some 0⟩ 12) proper_none
    (query_run (uartCommand host .uartCtrl port UART_GET_PORT_CAP dev) 12 parsePortCap dev
      (parsePortCap (host.stack s 12)) s)

theorem cmdProbe_calls : RunsCalls host dev s (cmdProbe host dev s).outcome := by
  set getInfo : Call := .transact ChannelType.sys.code 0 MsgType.cmd.code SYS_GET_DEV_INFO none 0
    ⟨none, some (host.stack s 8), some 0⟩ 8
  set i := sysGetDevInfo host dev (some (parseDevInfo (host.stack s 8))) s with hi
  obtain ⟨hdev, hstate, hret⟩ : i.dev = (getInfo.run host dev s).dev ∧ i.state = (getInfo.run host dev s).state ∧
      (i.ret = .ok → (getInfo.run host dev s).ret = .ok) :=
    query_run (uartCommand host .sys 0 SYS_GET_DEV_INFO dev) 8 parseDevInfo dev (parseDevInfo (host.stack s 8)) s
  by_cases hinfo : i.ret ≠ .ok
  · have hr : cmdProbe host dev s = ⟨1, [.failed .getDevInfo i.ret], i.dev, i.state⟩ := if_pos hinfo
    rw [hr]
    exact ⟨[(getInfo, _)], ⟨proper_none, rfl, hdev, hstate⟩, le_rfl, fun h => absurd h Nat.one_ne_zero⟩
  · have hr : cmdProbe host dev s = (sysGetCaps host i.dev (some (parseCaps (host.stack i.state 8))) i.state).command
        .getCaps fun caps => i.out.toList.map .devInfo ++ caps.toList.map .caps := if_neg hinfo
    have hok := hret (not_not.mp hinfo)
    rw [hr]
    obtain ⟨calls, hcalls, hle, hall⟩ : RunsCalls host i.dev i.state _ :=
      runsCalls_of_reply (c := .transact ChannelType.sys.code 0 MsgType.cmd.code SYS_GET_CAPS none 0
          ⟨none, some (host.stack i.state 8), some 0⟩ 8) proper_none
        (query_run (uartCommand host .sys 0 SYS_GET_CAPS i.dev) 8 parseCaps i.dev (parseCaps (host.stack i.state 8))
          i.state)
    refine ⟨(getInfo, .ok) :: calls, ⟨proper_none, hok, ?_⟩, hle,
      fun h => ⟨by simp, List.forall_mem_cons.mpr ⟨fun _ => rfl, (hall h).2⟩⟩⟩
    rw [← hdev, ← hstate]
    exact hcalls

/-- The result of a call of the loopback. -/
def LoopbackCall.ret : LoopbackCall → Result
  | uartOpen _ _ ret => ret
  | uartWrite _ _ ret => ret
  | uartRead _ ret _ => ret
  | uartClose _ ret => ret

theorem LoopbackCall.Made.run {dev' : Device} {s' : σ} : ∀ {c : LoopbackCall}, c.Made host dev s dev' s' →
    ∃ call : Call, call.Proper ∧ call.run host dev s = ⟨c.ret, (call.run host dev s).out, dev', s'⟩
  | .uartOpen port line _, h => by
    obtain ⟨rfl, rfl, rfl⟩ := h
    exact ⟨.transact ChannelType.uartCtrl.code port MsgType.cmd.code UART_OPEN (some (lineCodingBytes line)) 8
      ⟨none, none, none⟩ 0, proper_some _, rfl⟩
  | .uartWrite port data ret, h => by
    refine ⟨.uartWrite port (some data) data.length, proper_some data, ?_⟩
    unfold Call.run
    dsimp only
    rw [show UsbMux.uartWrite host dev port (some data) data.length s = _ from h]
    rfl
  | .uartRead port ret chunk, h => by
    obtain ⟨rfl, out, hread, -⟩ := h
    refine ⟨.uartRead port (some (host.stack s 512)) 512 (some 0), trivial, ?_⟩
    unfold Call.run
    dsimp only
    rw [hread]
    rfl
  | .uartClose port _, h => by
    obtain ⟨rfl, rfl, rfl⟩ := h
    exact ⟨.transact ChannelType.uartCtrl.code port MsgType.cmd.code UART_CLOSE none 0 ⟨none, none, none⟩ 0,
      proper_none, rfl⟩

/-- The calls of the loopback, as calls of the driver. -/
theorem CallsMade.performs {dev' : Device} {s' : σ} : ∀ {calls : List LoopbackCall} {dev : Device} {s : σ},
    CallsMade host dev s calls dev' s' →
      ∃ cs, Performs host dev s cs dev' s' ∧ cs.map Prod.snd = calls.map LoopbackCall.ret
  | [], _, _, h => ⟨[], h, rfl⟩
  | c :: calls, _, _, ⟨dev₁, s₁, hc, hcalls⟩ => by
    obtain ⟨call, hproper, hrun⟩ := hc.run
    obtain ⟨cs, hperf, hret⟩ := hcalls.performs
    refine ⟨(call, c.ret) :: cs, ⟨hproper, by rw [hrun], ?_⟩, congrArg (c.ret :: ·) hret⟩
    rw [hrun]
    exact hperf

theorem Passed.ret {port : UInt8} {line : LineCoding} {payload : Bytes} {calls : List LoopbackCall}
    (h : Passed port line payload calls) : calls ≠ [] ∧ ∀ ret ∈ calls.map LoopbackCall.ret, ret = .ok := by
  obtain ⟨chunks, rfl, -, -⟩ := h
  refine ⟨List.cons_ne_nil _ _, fun ret hret => ?_⟩
  simp only [List.map_cons, List.map_append, List.map_map, List.map_nil, List.mem_cons, List.mem_append, List.mem_map,
    List.not_mem_nil, or_false] at hret
  rcases hret with rfl | rfl | ⟨chunk, -, rfl⟩ | rfl
  · rfl
  · rfl
  · rfl
  · rfl

/-- An oversized payload is refused at once; otherwise the loopback is a run of
calls. -/
theorem cmdUartLoopback_calls (port : UInt8) (baud : Option UInt32) {payload : Bytes} (hfit : payload.length ≤ 488) :
    RunsCalls host dev s (cmdUartLoopback host dev port baud payload s).outcome := by
  obtain ⟨hmade, -⟩ := cmdUartLoopback_cases host dev port baud payload s
  obtain ⟨cs, hperf, hret⟩ := hmade.performs
  refine ⟨cs, hperf, ?_, fun hcode => ?_⟩
  · have hbig : ¬payload.length > MAX_FRAME_LEN - HEADER_LEN := Nat.not_lt_of_le hfit
    show (cmdUartLoopback host dev port baud payload s).code ≤ 1
    unfold cmdUartLoopback
    rw [if_neg hbig]
    dsimp only
    split_ifs <;> simp
  · obtain ⟨hne, hall⟩ := ((cmdUartLoopback_passed host dev port baud payload s).mp hcode).ret
    refine ⟨?_, fun x hx _ => hall x.2 (hret ▸ List.mem_map_of_mem hx)⟩
    rintro rfl
    exact hne (List.map_eq_nil_iff.mp hret.symm)

theorem cmdBleScan_calls {secondsText : Option Bytes} {clock : List ℤ} {r : Cmd σ}
    (h : cmdBleScan host dev secondsText clock s = some r) : RunsCalls host dev s r.outcome := by
  obtain ⟨calls, hperf, hcalls⟩ := cmdBleScan_performs host dev h
  rcases hcalls with ⟨first, reads, stop, ret, rfl, -, hfirst, hreads, -, hstop⟩ | ⟨hone, -⟩
  · refine ⟨_, hperf, ?_, fun hcode => ⟨by simp, fun x hx hdraw => ?_⟩⟩
    · show r.code ≤ 1
      rw [hstop]
      split <;> decide
    rcases List.mem_append.mp hx with hx | hx
    · rcases List.mem_append.mp hx with hx | hx
      · have hmem : (x.1.opcode, x.2) ∈ requests first := List.mem_map_of_mem hx
        rw [hfirst] at hmem
        simp only [opening, List.mem_cons, List.not_mem_nil, or_false, Prod.mk.injEq] at hmem
        rcases hmem with h | h | h
        · exact h.2
        · exact h.2
        · exact h.2
      · obtain ⟨out, hread⟩ := hreads.readsEvent x hx
        rw [hread] at hdraw
        cases hdraw
    · rw [List.mem_singleton.mp hx]
      by_contra hret
      rw [if_neg hret] at hstop
      exact Nat.one_ne_zero (hstop.symm.trans hcode)
  · exact ⟨calls, hperf, hone.le, fun hcode => absurd (hone.symm.trans hcode) Nat.one_ne_zero⟩

/-! ### Command lines -/

/-- A port comes first of so many arguments at most. -/
def TakesPort (most : ℕ) (args : List Bytes) : Prop :=
  ∃ port more p, args = port :: more ∧ more.length < most ∧ parsePort port = some p

/-- The arguments a command takes; the payload of a loopback has to fit a
frame. -/
def Verb.Takes (args : List Bytes) : Verb → Prop
  | probe => True
  | debugXfer => True
  | heartbeat => True
  | uartCap => TakesPort 1 args
  | uartOpen => TakesPort 2 args
  | uartLoopback => TakesPort 3 args ∧ ∀ payload, args[2]? = some payload → payload.length ≤ 488
  | uartClose => TakesPort 1 args
  | bleScan => args.length ≤ 1

/-- A command line: a command by its name, and arguments it takes. -/
def CommandLine (argv : List Bytes) : Prop :=
  ∃ (argv0 : Bytes) (verb : Verb) (args : List Bytes), argv = argv0 :: verb.name :: args ∧ verb.Takes args

theorem portOf_of_takes {most : ℕ} {args : List Bytes} (h : TakesPort most args) : ∃ p, portOf args most = some p := by
  obtain ⟨port, more, p, rfl, hmore, hp⟩ := h
  have hlen : ¬((port :: more).length = 0 ∨ (port :: more).length > most) := by
    rw [List.length_cons]
    omega
  exact ⟨p, (if_neg hlen).trans hp⟩

theorem portOf_eq_none {most : ℕ} {args : List Bytes} (h : ¬TakesPort most args) : portOf args most = none := by
  rcases args with _ | ⟨port, more⟩
  · rfl
  unfold portOf
  by_cases hlen : (port :: more).length = 0 ∨ (port :: more).length > most
  · exact if_pos hlen
  · rw [if_neg hlen]
    rcases hp : parsePort port with _ | p
    · exact hp
    · rw [List.length_cons] at hlen
      exact absurd ⟨port, more, p, rfl, by omega, hp⟩ h

theorem Verb.run_usage {verb : Verb} {args : List Bytes} (h : ¬verb.Takes args) (clock : List ℤ) :
    verb.run host dev args clock s = some ⟨2, dev, s⟩ := by
  cases verb with
  | probe => exact absurd trivial h
  | debugXfer => exact absurd trivial h
  | heartbeat => exact absurd trivial h
  | uartCap =>
    unfold Verb.run
    rw [portOf_eq_none h]
    rfl
  | uartOpen =>
    unfold Verb.run
    rw [portOf_eq_none h]
    rfl
  | uartClose =>
    unfold Verb.run
    rw [portOf_eq_none h]
    rfl
  | bleScan => exact if_pos (Nat.lt_of_not_le h)
  | uartLoopback =>
    unfold Verb.run
    by_cases hport : TakesPort 3 args
    · obtain ⟨p, hp⟩ := portOf_of_takes hport
      obtain ⟨payload, hpayload, hbig⟩ : ∃ payload, args[2]? = some payload ∧ 488 < payload.length := by
        by_contra hno
        exact h ⟨hport, fun payload hpayload => Nat.le_of_not_lt fun hbig => hno ⟨payload, hpayload, hbig⟩⟩
      have hr : cmdUartLoopback host dev p (args[1]?.map baudOf) payload s = ⟨2, host.stack s 512, [], [], dev, s⟩ :=
        if_pos hbig
      rw [hp, Option.elim_some, List.getD_eq_getElem?_getD, hpayload, Option.getD_some, hr]
      rfl
    · rw [portOf_eq_none hport]
      rfl

theorem Verb.run_calls {verb : Verb} (hverb : verb ≠ debugXfer) {args : List Bytes} (h : verb.Takes args)
    {clock : List ℤ}
    {o : Outcome σ} (hrun : verb.run host dev args clock s = some o) : RunsCalls host dev s o := by
  cases verb with
  | probe =>
    obtain rfl := Option.some.inj hrun
    exact cmdProbe_calls
  | debugXfer => exact absurd rfl hverb
  | heartbeat =>
    obtain rfl := Option.some.inj hrun
    exact cmdHeartbeat_calls _
  | uartCap =>
    obtain ⟨p, hp⟩ := portOf_of_takes h
    unfold Verb.run at hrun
    rw [hp] at hrun
    obtain rfl := Option.some.inj hrun
    exact cmdUartCap_calls p
  | uartOpen =>
    obtain ⟨p, hp⟩ := portOf_of_takes h
    unfold Verb.run at hrun
    rw [hp] at hrun
    obtain rfl := Option.some.inj hrun
    exact cmdUartOpen_calls p _
  | uartLoopback =>
    obtain ⟨hport, hpayload⟩ := h
    obtain ⟨p, hp⟩ := portOf_of_takes hport
    unfold Verb.run at hrun
    rw [hp] at hrun
    obtain rfl := Option.some.inj hrun
    apply cmdUartLoopback_calls p
    rw [List.getD_eq_getElem?_getD]
    rcases hget : args[2]? with _ | payload
    · decide
    · exact hpayload payload hget
  | uartClose =>
    obtain ⟨p, hp⟩ := portOf_of_takes h
    unfold Verb.run at hrun
    rw [hp] at hrun
    obtain rfl := Option.some.inj hrun
    exact cmdUartClose_calls p
  | bleScan =>
    have hrun' : (cmdBleScan host dev args.head? clock s).map Cmd.outcome = some o :=
      (if_neg (Nat.not_lt_of_le h)).symm.trans hrun
    obtain ⟨r, hr, rfl⟩ := Option.map_eq_some_iff.mp hrun'
    exact cmdBleScan_calls hr

/-- A command fails or succeeds, and leaves the device as it was, but for its
counter. -/
theorem Verb.run_ends {verb : Verb} {args : List Bytes} (h : verb.Takes args) {clock : List ℤ} {o : Outcome σ}
    (hrun : verb.run host dev args clock s = some o) : o.code ≤ 1 ∧ o.dev.still = dev.still := by
  by_cases hverb : verb = debugXfer
  · subst hverb
    obtain rfl := Option.some.inj hrun
    obtain ⟨hcode, hdev⟩ := cmdDebugXfer_ends host dev s
    exact ⟨hcode, (congrArg Device.still hdev).trans (nextSeq_still dev)⟩
  · obtain ⟨calls, hperf, hcode, -⟩ := Verb.run_calls hverb h hrun
    exact ⟨hcode, hperf.still⟩

/-! ### How the program ends -/

/-- The clock gets past the end of a scan of so many seconds. -/
def ClockEnds (seconds : ℕ) (clock : List ℤ) : Prop :=
  ∃ now rest, clock = now :: rest ∧ ∃ t ∈ rest, scanEnd now seconds < t

theorem Verb.run_isSome (host : Host σ) (dev : Device) (verb : Verb) (args : List Bytes) {clock : List ℤ}
    (hclock : ClockEnds (secondsOf args.head?) clock) (s : σ) : (verb.run host dev args clock s).isSome := by
  cases verb with
  | bleScan =>
    obtain ⟨now, rest, rfl, hlate⟩ := hclock
    refine isSome_of_ite fun _ => ?_
    rw [Option.isSome_map]
    exact cmdBleScan_isSome host dev args.head? hlate s
  | _ => rfl

/-- The ways through `main`. -/
theorem main_cases (host : Host σ) (ohost : OpenHost) (argv : List Bytes) {clock : List ℤ}
    (hclock : ClockEnds (secondsOf argv[2]?) clock) (s : σ) :
    let opened := muxOpen ohost (some defaultOpenOptions)
    ∃ r, main host ohost argv clock s = some r ∧
      (argv.length < 2 ∧ r = ⟨2, [], s⟩ ∨ ¬argv.length < 2 ∧ opened.1 ≠ .ok ∧ r = ⟨1, opened.2.2, s⟩ ∨
        ∃ dev, ¬argv.length < 2 ∧ opened.1 = .ok ∧ opened.2.1 = some dev ∧
          (¬CommandLine argv ∧ r = ⟨2, opened.2.2 ++ muxClose dev, s⟩ ∨
            ∃ argv0 verb args o, argv = argv0 :: Verb.name verb :: args ∧ verb.Takes args ∧
              verb.run host dev args clock s = some o ∧ r = ⟨o.code, opened.2.2 ++ muxClose o.dev, o.state⟩)) := by
  intro opened
  by_cases hargc : argv.length < 2
  · exact ⟨_, if_pos hargc, .inl ⟨hargc, rfl⟩⟩
  obtain ⟨device, calls, -, -, -, hopen⟩ := muxOpen_spec ohost (some defaultOpenOptions)
  rcases hopened : muxOpen ohost (some defaultOpenOptions) with ⟨ret, out, openCalls⟩
  have ho : opened = (ret, out, openCalls) := hopened
  rw [hopened] at hopen
  rw [ho]
  rcases hopen with ⟨hret, hout, -⟩ | ⟨hret, hout, -⟩
  · obtain rfl : out = none := hout
    refine ⟨⟨1, openCalls, s⟩, ?_, .inr (.inl ⟨hargc, hret, rfl⟩)⟩
    unfold main
    rw [if_neg hargc, hopened]
    cases ret <;> rfl
  · obtain rfl : ret = .ok := hret
    obtain rfl : out = some device := hout
    obtain ⟨argv0, name, args, rfl⟩ : ∃ argv0 name args, argv = argv0 :: name :: args := by
      rcases argv with _ | ⟨argv0, _ | ⟨name, args⟩⟩
      · exact absurd (by decide) hargc
      · exact absurd Nat.one_lt_two hargc
      · exact ⟨argv0, name, args, rfl⟩
    have hhead : (argv0 :: name :: args)[2]? = args.head? := by cases args <;> rfl
    rw [hhead] at hclock
    unfold main
    rw [if_neg hargc, hopened]
    dsimp only
    rcases hname : Verb.ofName ((argv0 :: name :: args).getD 1 []) with _ | verb
    · -- no command has this name
      refine ⟨_, rfl, .inr (.inr ⟨device, hargc, rfl, rfl, .inl ⟨?_, rfl⟩⟩)⟩
      rintro ⟨argv0', verb, args', hargv, -⟩
      obtain ⟨rfl, -⟩ := List.cons.inj (List.cons.inj hargv).2
      cases hname.symm.trans verb.ofName_name
    obtain rfl : name = verb.name := Verb.ofName_eq_some.mp hname
    by_cases htakes : verb.Takes args
    · obtain ⟨o, ho⟩ := Option.isSome_iff_exists.mp (verb.run_isSome host device args hclock s)
      refine ⟨⟨o.code, openCalls ++ muxClose o.dev, o.state⟩, ?_, .inr (.inr ⟨device, hargc, rfl, rfl, .inr
        ⟨argv0, verb, args, o, rfl, htakes, ho, rfl⟩⟩)⟩
      show (verb.run host device args clock s).map _ = _
      rw [ho]
      rfl
    · refine ⟨⟨2, openCalls ++ muxClose device, s⟩, ?_, .inr (.inr ⟨device, hargc, rfl, rfl, .inl ⟨?_, rfl⟩⟩)⟩
      · show (verb.run host device args clock s).map _ = _
        rw [Verb.run_usage htakes]
        rfl
      · rintro ⟨argv0', verb', args', hargv, htakes'⟩
        obtain ⟨hsame, rfl⟩ := List.cons.inj (List.cons.inj hargv).2
        obtain rfl : verb = verb' := Option.some.inj (hname.symm.trans (Verb.ofName_eq_some.mpr hsame))
        exact htakes htakes'

/-- **The exit code 2** is that of a bad command line. Without a command it
comes at once; otherwise the device is opened first, and where that fails the
exit code is 1, whatever the arguments are. With a bad command line nothing
is sent to the device. -/
theorem main_usage (host : Host σ) (ohost : OpenHost) (argv : List Bytes) {clock : List ℤ}
    (hclock : ClockEnds (secondsOf argv[2]?) clock) (s : σ) :
    ∃ r, main host ohost argv clock s = some r ∧ r.code ≤ 2 ∧
      (r.code = 2 ↔ ¬CommandLine argv ∧ (argv.length < 2 ∨ (muxOpen ohost (some defaultOpenOptions)).1 = .ok)) ∧
      (¬CommandLine argv → r.state = s) := by
  obtain ⟨r, hr, hcases⟩ := main_cases host ohost argv hclock s
  refine ⟨r, hr, ?_⟩
  rcases hcases with ⟨hargc, rfl⟩ | ⟨hargc, hopen, rfl⟩ | ⟨dev, hargc, hopen, -, hcases⟩
  · have hbad : ¬CommandLine argv := by
      rintro ⟨argv0, verb, args, rfl, -⟩
      simp only [List.length_cons] at hargc
      omega
    exact ⟨le_rfl, iff_of_true rfl ⟨hbad, .inl hargc⟩, fun _ => rfl⟩
  · exact ⟨Nat.le_succ 1, iff_of_false (Nat.succ_ne_self 1).symm fun h => h.2.elim hargc hopen, fun _ => rfl⟩
  · rcases hcases with ⟨hbad, rfl⟩ | ⟨argv0, verb, args, o, rfl, htakes, hrun, rfl⟩
    · exact ⟨le_rfl, iff_of_true rfl ⟨hbad, .inr hopen⟩, fun _ => rfl⟩
    · have hgood : CommandLine (argv0 :: verb.name :: args) := ⟨argv0, verb, args, rfl, htakes⟩
      obtain ⟨hcode, -⟩ := Verb.run_ends htakes hrun
      refine ⟨hcode.trans (Nat.le_succ 1), iff_of_false (fun h => ?_) fun h => h.1 hgood, fun h => absurd hgood h⟩
      replace h : o.code = 2 := h
      omega

/-- Port 256 does not exist. -/
theorem main_usage_port :
    let ohost : OpenHost := ⟨true, .success, 0, some 0, 1, .success, .success⟩
    let argv := [text "tool", text "uart-cap", text "256"]
    ∃ r, main (Pipe.host Stack.zero silent) ohost argv [0, 257] ⟨[], ()⟩ = some r ∧ r.code = 2 ∧
      r.state = ⟨[], ()⟩ := by
  intro ohost argv
  have hbad : ¬CommandLine argv := by
    rintro ⟨argv0, verb, args, hargv, htakes⟩
    obtain ⟨hname, rfl⟩ := List.cons.inj (List.cons.inj hargv).2
    obtain rfl : verb = .uartCap := Option.some.inj ((Verb.ofName_eq_some.mpr hname).symm.trans (by decide))
    obtain ⟨port, more, p, hargs, -, hp⟩ := htakes
    obtain ⟨rfl, -⟩ := List.cons.inj hargs
    have hnone : parsePort (text "256") = none := by decide
    cases hnone.symm.trans hp
  have hclock : ClockEnds (secondsOf argv[2]?) [0, 257] := ⟨0, [257], rfl, 257, by decide, by decide⟩
  obtain ⟨r, hr, -, hcode, hstate⟩ := main_usage (Pipe.host Stack.zero silent) ohost argv hclock ⟨[], ()⟩
  exact ⟨r, hr, hcode.mpr ⟨hbad, .inr rfl⟩, hstate hbad⟩

/-- **What was taken is given back.** Whatever the arguments are, however the
open ends and whatever the command meets, the program leaves the bus as it
was: the contexts, the handles, the claims and the kernel drivers. -/
theorem main_releases (host : Host σ) (ohost : OpenHost) (argv : List Bytes) {clock : List ℤ}
    (hclock : ClockEnds (secondsOf argv[2]?) clock) (s : σ) (phys : ℕ → ℕ) (bus : Bus)
    (hrep : bus.Reports phys ohost (some defaultOpenOptions)) :
    ∃ r, main host ohost argv clock s = some r ∧ bus.calls phys ohost r.calls = bus := by
  obtain ⟨r, hr, hcases⟩ := main_cases host ohost argv hclock s
  refine ⟨r, hr, ?_⟩
  obtain ⟨device, hfree, -, hopened⟩ := muxOpen_bus phys hrep
  -- the close of any device that differs from the opened one in its counter
  have hclosed : ∀ dev dev' : Device, (muxOpen ohost (some defaultOpenOptions)).2.1 = some dev →
      dev'.still = dev.still →
      bus.calls phys ohost ((muxOpen ohost (some defaultOpenOptions)).2.2 ++ muxClose dev') = bus := by
    intro dev dev' hdev hstill
    rcases hopened with ⟨-, hnone, -⟩ | ⟨-, hsome, -, hbus⟩
    · cases hnone.symm.trans hdev
    · obtain rfl := Option.some.inj (hsome.symm.trans hdev)
      rw [Bus.calls_append, hbus, ← muxClose_still, hstill, muxClose_still,
        Bus.calls_releasing phys ohost _ (muxClose_acquired ohost device), muxClose_released, hfree.giveAll_takeAll]
  rcases hcases with ⟨-, rfl⟩ | ⟨-, hopen, rfl⟩ | ⟨dev, -, -, hdev, hcases⟩
  · rfl
  · rcases hopened with ⟨-, -, -, hbus⟩ | ⟨hok, -⟩
    · exact hbus
    · exact absurd hok hopen
  · rcases hcases with ⟨-, rfl⟩ | ⟨argv0, verb, args, o, rfl, htakes, hrun, rfl⟩
    · exact hclosed dev dev hdev rfl
    · exact hclosed dev o.dev hdev (Verb.run_ends htakes hrun).2

/-- The driver is attached, and nothing answers. -/
theorem main_releases_silent :
    let ohost : OpenHost := ⟨true, .success, 0, some 0, 1, .success, .success⟩
    let bus : Bus := ⟨0, 0, 0, fun _ _ => true⟩
    ∃ r, main (Pipe.host Stack.zero silent) ohost [text "tool", text "probe"] [0, 6] ⟨[], ()⟩ = some r ∧
      bus.calls (fun _ => 0) ohost r.calls = bus := by
  intro ohost bus
  exact main_releases (Pipe.host Stack.zero silent) ohost [text "tool", text "probe"]
    ⟨0, [6], rfl, 6, by decide, by decide⟩
    ⟨[], ()⟩ (fun _ => 0) bus fun _ _ _ _ => rfl

/-- The program fails without a word to the device, or its command is a run of
calls. -/
theorem main_calls (host : Host σ) (ohost : OpenHost) (argv : List Bytes) {clock : List ℤ}
    (hclock : ClockEnds (secondsOf argv[2]?) clock) (s : σ) (hname : argv[1]? ≠ some Verb.debugXfer.name) :
    ∃ r, main host ohost argv clock s = some r ∧
      (r.code ≠ 0 ∧ r.state = s ∨
        ∃ dev o, (muxOpen ohost (some defaultOpenOptions)).2.1 = some dev ∧ RunsCalls host dev s o ∧ r.code = o.code ∧
          r.state = o.state) := by
  obtain ⟨r, hr, hcases⟩ := main_cases host ohost argv hclock s
  refine ⟨r, hr, ?_⟩
  rcases hcases with ⟨-, rfl⟩ | ⟨-, -, rfl⟩ | ⟨dev, -, -, hdev, hcases⟩
  · exact .inl ⟨Nat.succ_ne_zero _, rfl⟩
  · exact .inl ⟨Nat.succ_ne_zero _, rfl⟩
  · rcases hcases with ⟨-, rfl⟩ | ⟨argv0, verb, args, o, rfl, htakes, hrun, rfl⟩
    · exact .inl ⟨Nat.succ_ne_zero _, rfl⟩
    · have hverb : verb ≠ .debugXfer := by
        rintro rfl
        exact hname rfl
      exact .inr ⟨dev, o, hdev, Verb.run_calls hverb htakes hrun, rfl, rfl⟩

/-- **The exit code 0** is that of a run of calls that were carried out. The
program sends nothing, and fails, or it performs calls on the device it
opened; if it exits with 0 there were some, and every request among them
returned OK. -/
theorem main_succeeds (host : Host σ) (ohost : OpenHost) (argv : List Bytes) {clock : List ℤ}
    (hclock : ClockEnds (secondsOf argv[2]?) clock) (s : σ)
    (hname : argv[1]? ≠ some Verb.debugXfer.name) :
    ∃ r, main host ohost argv clock s = some r ∧
      (r.code ≠ 0 ∧ r.state = s ∨
        ∃ dev dev' calls, (muxOpen ohost (some defaultOpenOptions)).2.1 = some dev ∧
          Performs host dev s calls dev' r.state ∧
          (r.code = 0 → calls ≠ [] ∧ ∀ x ∈ calls, x.1.draws = true → x.2 = .ok)) := by
  obtain ⟨r, hr, hfail | ⟨dev, o, hdev, ⟨calls, hperf, -, hall⟩, hcode, hstate⟩⟩ :=
    main_calls host ohost argv hclock s hname
  · exact ⟨r, hr, .inl hfail⟩
  · rw [← hstate] at hperf
    rw [← hcode] at hall
    exact ⟨r, hr, .inr ⟨dev, o.dev, calls, hdev, hperf, hall⟩⟩

/-- Five seconds of a scan, with time for one read. -/
theorem main_succeeds_scan :
    let host := Pipe.host Stack.zero silent
    let ohost : OpenHost := ⟨true, .success, 0, some 0, 1, .success, .success⟩
    ∃ r dev dev' calls, main host ohost [text "tool", text "ble-scan"] [100, 101, 106] ⟨scanQueue, ()⟩ = some r ∧
      r.code = 0 ∧ (muxOpen ohost (some defaultOpenOptions)).2.1 = some dev ∧
      Performs host dev ⟨scanQueue, ()⟩ calls dev' r.state ∧ calls ≠ [] ∧
      ∀ x ∈ calls, x.1.draws = true → x.2 = .ok := by
  intro host ohost
  obtain ⟨r, hr, hends⟩ := main_succeeds host ohost [text "tool", text "ble-scan"]
    ⟨100, [101, 106], rfl, 106, by decide, by decide⟩ ⟨scanQueue, ()⟩ (by decide)
  have hzero :
      (main host ohost [text "tool", text "ble-scan"] [100, 101, 106] ⟨scanQueue, ()⟩).map Exit.code = some 0 := by
    decide +kernel
  have hcode : r.code = 0 := by
    rw [hr] at hzero
    exact Option.some.inj hzero
  rcases hends with ⟨hbad, -⟩ | ⟨dev, dev', calls, hopen, hperf, hok⟩
  · exact absurd hcode hbad
  · obtain ⟨hne, hall⟩ := hok hcode
    exact ⟨r, dev, dev', calls, hr, hcode, hopen, hperf, hne, hall⟩

end UsbMux
