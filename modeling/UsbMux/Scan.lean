/-
# The BLE scan

`cmd_ble_scan`: query the capabilities, set the scan parameters, start the
scan, print events until the time is over, stop the scan. A timed-out read
is tried again; another error ends the loop. The clock is the list of what
`time(NULL)` returns; where it is too short for the loop to end the command
has no result.

The command ends if the clock gets past the end of the scan
(`cmdBleScan_isSome`). It is a run of calls: the opening requests up to one
that is not carried out, or all three, a read for each round of the loop, and
as the last call the stop, whatever came in between (`scan_stops`). What it
prints in the loop are the events in order, however long the gaps between
them, with the scan results numbered one after the other (`scan_prints`).

Key definitions: `scanEvent`, `scanLoop`, `cmdBleScan`, `Performs`, `ReadsOn`,
`Opens`, `Started`, `Unstarted`, `Numbered`.
Key theorems: `scanLoop_performs`, `cmdBleScan_performs`, `cmdBleScan_isSome`,
`scan_stops`, `scanLines_numbered`, `scan_prints`.
-/
import UsbMux.Commands
import UsbMux.Failures
import Mathlib.Data.List.GetD

namespace UsbMux

open Buffer

variable {σ : Type}

/-! ### The command -/

def BLE_EVT_SCAN_RSP : UInt8 := 0x80

/-- What is printed for an event, and the number of reports after it. -/
def scanEvent (reports : UInt32) (header : Header) (payload : Bytes) (payloadLen : ℕ) : Line × UInt32 :=
  if header.chType = ChannelType.bleMgmt.code ∧ header.chId = 0 ∧ header.opcode = BLE_EVT_SCAN_RSP then
    match bleParseScanResult payload payloadLen with
    | .error ret => (.scanParseFailed ret, reports)
    | .ok result => (.scan reports result, reports + 1)
  else (.event header.chType header.chId header.opcode payloadLen, reports)

/-- What the loop leaves. -/
structure ScanLoop (σ : Type) where
  reports : UInt32
  lines : List Line
  state : σ

/-- The caller's objects for an event: the loop's variables, not yet written
to. -/
def eventOut (host : Host σ) (s : σ) : Out :=
  ⟨some (deserializeHeader (host.stack s HEADER_LEN)), some (host.stack s MAX_FRAME_LEN), some 0⟩

variable (host : Host σ)

/-- The loop of `cmd_ble_scan`, with the clock from here on. -/
def scanLoop (dev : Device) (endTime : ℤ) : List ℤ → UInt32 → σ → Option (ScanLoop σ)
  | [], _, _ => none
  | now :: clock, reports, s =>
    if now ≤ endTime then
      match bleReadEvent host dev (eventOut host s) MAX_FRAME_LEN s with
      | (ret, out, s) =>
        if ret = .errTimeout then scanLoop dev endTime clock reports s
        else if ret ≠ .ok then some ⟨reports, [.eventReadFailed ret], s⟩
        else
          let (line, reports) := scanEvent reports (out.header.getD .zero) (out.payload.getD []) (out.len.getD 0)
          (scanLoop dev endTime clock reports s).map fun l => { l with lines := line :: l.lines }
    else some ⟨reports, [], s⟩

/-- `time(NULL) + (time_t)seconds`. A sum past the range of `time_t` is
undefined in C; it wraps here. -/
def scanEnd (now : ℤ) (seconds : ℕ) : ℤ := (now + (seconds : ℤ).bmod (2 ^ 64)).bmod (2 ^ 64)

/-- `cmd_ble_scan`. -/
def cmdBleScan (dev : Device) (secondsText : Option Bytes) (clock : List ℤ) (s : σ) : Option (Cmd σ) :=
  let seconds := secondsOf secondsText
  let c := bleGetCap host dev (some (parseBleCap (host.stack s 8))) s
  if c.ret ≠ .ok then some ⟨1, [.failed .bleGetCap c.ret], c.dev, c.state⟩
  else
    let cap := c.out.getD (parseBleCap [])
    let interval := if cap.scanInterval ≠ 0 then cap.scanInterval else 16
    let window := if cap.scanWindow ≠ 0 then cap.scanWindow else 16
    let p := bleSetScanParam host c.dev interval window 0 0x03 1 0 c.state
    if p.ret ≠ .ok then some ⟨1, [.bleCap cap, .failed .bleSetScanParam p.ret], p.dev, p.state⟩
    else
      let b := bleScanStart host p.dev p.state
      if b.ret ≠ .ok then some ⟨1, [.bleCap cap, .failed .bleScanStart b.ret], b.dev, b.state⟩
      else
        match clock with
        | [] => none
        | now :: clock =>
          (scanLoop host b.dev (scanEnd now seconds) clock 0 b.state).map fun l =>
            let r := (bleScanStop host b.dev l.state).command .bleScanStop fun _ => [.scanStopped l.reports]
            { r with lines := [.bleCap cap, .scanStarted seconds] ++ l.lines ++ r.lines }

/-! ### Rounds of the loop -/

section Rounds

variable {host} {dev : Device} {endTime now : ℤ} {clock : List ℤ} {reports : UInt32} {s s₁ : σ} {out : Out}

theorem scanLoop_over (h : ¬now ≤ endTime) :
    scanLoop host dev endTime (now :: clock) reports s = some ⟨reports, [], s⟩ := by
  rw [scanLoop, if_neg h]

theorem scanLoop_timeout (h : now ≤ endTime)
    (hread : bleReadEvent host dev (eventOut host s) MAX_FRAME_LEN s = (.errTimeout, out, s₁)) :
    scanLoop host dev endTime (now :: clock) reports s = scanLoop host dev endTime clock reports s₁ := by
  rw [scanLoop, if_pos h, hread]
  exact if_pos rfl

theorem scanLoop_error {ret : Result} (h : now ≤ endTime)
    (hread : bleReadEvent host dev (eventOut host s) MAX_FRAME_LEN s = (ret, out, s₁)) (htimeout : ret ≠ .errTimeout)
    (hret : ret ≠ .ok) :
    scanLoop host dev endTime (now :: clock) reports s = some ⟨reports, [.eventReadFailed ret], s₁⟩ := by
  rw [scanLoop, if_pos h, hread]
  exact (if_neg htimeout).trans (if_pos hret)

theorem scanLoop_event (h : now ≤ endTime)
    (hread : bleReadEvent host dev (eventOut host s) MAX_FRAME_LEN s = (.ok, out, s₁)) :
    let e := scanEvent reports (out.header.getD .zero) (out.payload.getD []) (out.len.getD 0)
    scanLoop host dev endTime (now :: clock) reports s =
      (scanLoop host dev endTime clock e.2 s₁).map fun l => { l with lines := e.1 :: l.lines } := by
  intro e
  rw [scanLoop, if_pos h, hread]
  exact (if_neg (by simp)).trans (if_neg (by simp))

end Rounds

/-- **The loop ends** if the clock gets past the end. -/
theorem scanLoop_isSome (dev : Device) {endTime : ℤ} : ∀ {clock : List ℤ}, (∃ t ∈ clock, endTime < t) →
    ∀ (reports : UInt32) (s : σ), (scanLoop host dev endTime clock reports s).isSome := by
  intro clock hlate
  induction clock with
  | nil =>
    obtain ⟨t, ht, -⟩ := hlate
    cases ht
  | cons now clock ih =>
    intro reports s
    by_cases h : now ≤ endTime
    · have hrest : ∃ t ∈ clock, endTime < t := by
        obtain ⟨t, ht, hlt⟩ := hlate
        rcases List.mem_cons.mp ht with rfl | ht
        · omega
        · exact ⟨t, ht, hlt⟩
      rcases hread : bleReadEvent host dev (eventOut host s) MAX_FRAME_LEN s with ⟨ret, out, s₁⟩
      by_cases htimeout : ret = .errTimeout
      · subst htimeout
        rw [scanLoop_timeout h hread]
        exact ih hrest reports s₁
      by_cases hret : ret = .ok
      · subst hret
        rw [scanLoop_event h hread, Option.isSome_map]
        exact ih hrest _ s₁
      · rw [scanLoop_error h hread htimeout hret]
        rfl
    · rw [scanLoop_over h]
      rfl

/-! ### The calls of a scan -/

/-- The calls, with proper payloads, are made one after the other, with these
results, and leave the second device and host. -/
def Performs : Device → σ → List (Call × Result) → Device → σ → Prop
  | dev, s, [], dev', s' => dev' = dev ∧ s' = s
  | dev, s, (c, ret) :: calls, dev', s' =>
    c.Proper ∧ (c.run host dev s).ret = ret ∧ Performs (c.run host dev s).dev (c.run host dev s).state calls dev' s'

theorem Performs.append {host : Host σ} {dev₁ dev₂ : Device} {s₁ s₂ : σ} {b : List (Call × Result)} :
    ∀ {a : List (Call × Result)} {dev : Device} {s : σ}, Performs host dev s a dev₁ s₁ →
      Performs host dev₁ s₁ b dev₂ s₂ → Performs host dev s (a ++ b) dev₂ s₂
  | [], _, _, ⟨hdev, hs⟩, hb => hdev ▸ hs ▸ hb
  | _ :: _, _, _, ⟨hc, hret, ha⟩, hb => ⟨hc, hret, ha.append hb⟩

/-- The request a BLE command makes. -/
def Call.opcode : Call → Option UInt8
  | bleTransact opcode _ _ _ _ _ => some opcode
  | _ => none

/-- A call that reads an event. -/
def Call.ReadsEvent (c : Call) : Prop := ∃ out, c = .bleReadEvent out MAX_FRAME_LEN

/-- Events are read in so many rounds: after a read that was OK or timed out
comes the next round, after any other none. -/
def ReadsOn : ℕ → List (Call × Result) → Prop
  | 0, reads => reads = []
  | n + 1, reads => ∃ c ret rest, reads = (c, ret) :: rest ∧ c.ReadsEvent ∧
    if ret = .ok ∨ ret = .errTimeout then ReadsOn n rest else rest = []

theorem ReadsOn.readsEvent : ∀ {n : ℕ} {reads : List (Call × Result)}, ReadsOn n reads → ∀ x ∈ reads, x.1.ReadsEvent
  | 0, _, h => by
    obtain rfl : _ = [] := h
    exact List.forall_mem_nil _
  | n + 1, _, h => by
    obtain ⟨c, ret, rest, rfl, hc, hrest⟩ := h
    refine List.forall_mem_cons.mpr ⟨hc, ?_⟩
    split_ifs at hrest with hon
    · exact hrest.readsEvent
    · rw [hrest]
      exact List.forall_mem_nil _

/-- The rounds of the loop: the readings of the clock until it is past the
end. -/
def rounds (endTime : ℤ) (clock : List ℤ) : ℕ := (clock.takeWhile fun now => now ≤ endTime).length

/-- **The loop reads events**, one each round, and does nothing else. -/
theorem scanLoop_performs (dev : Device) (endTime : ℤ) : ∀ {clock : List ℤ} {reports : UInt32} {s : σ} {l : ScanLoop σ},
    scanLoop host dev endTime clock reports s = some l →
      ∃ reads, Performs host dev s reads dev l.state ∧ ReadsOn (rounds endTime clock) reads := by
  intro clock
  induction clock with
  | nil =>
    intro reports s l h
    cases h
  | cons now clock ih =>
    intro reports s l h
    by_cases htime : now ≤ endTime
    · have hrounds : rounds endTime (now :: clock) = rounds endTime clock + 1 := by
        unfold rounds
        rw [List.takeWhile_cons_of_pos (by exact decide_eq_true htime), List.length_cons]
      set c : Call := .bleReadEvent (eventOut host s) MAX_FRAME_LEN with hc
      rcases hread : bleReadEvent host dev (eventOut host s) MAX_FRAME_LEN s with ⟨ret, out, s₁⟩
      have hrun : c.run host dev s = ⟨ret, out, dev, s₁⟩ := by
        rw [hc]
        unfold Call.run
        dsimp only
        rw [hread]
      have hcall : ∀ reads s', Performs host dev s₁ reads dev s' → Performs host dev s ((c, ret) :: reads) dev s' :=
        fun _ _ h => ⟨trivial, by rw [hrun], by rw [hrun]; exact h⟩
      rw [hrounds]
      by_cases htimeout : ret = .errTimeout
      · subst htimeout
        rw [scanLoop_timeout htime hread] at h
        obtain ⟨reads, hperf, hon⟩ := ih h
        exact ⟨_, hcall _ _ hperf, c, .errTimeout, reads, rfl, ⟨_, rfl⟩, by rwa [if_pos (.inr rfl)]⟩
      by_cases hret : ret = .ok
      · subst hret
        rw [scanLoop_event htime hread] at h
        obtain ⟨l', hl', rfl⟩ := Option.map_eq_some_iff.mp h
        obtain ⟨reads, hperf, hon⟩ := ih hl'
        exact ⟨_, hcall _ _ hperf, c, .ok, reads, rfl, ⟨_, rfl⟩, by rwa [if_pos (.inl rfl)]⟩
      · rw [scanLoop_error htime hread htimeout hret] at h
        obtain rfl := Option.some.inj h
        exact ⟨_, hcall [] _ ⟨rfl, rfl⟩, c, ret, [], rfl, ⟨_, rfl⟩, by rw [if_neg (not_or.mpr ⟨hret, htimeout⟩)]⟩
    · rw [scanLoop_over htime] at h
      obtain rfl := Option.some.inj h
      have hrounds : rounds endTime (now :: clock) = 0 := by
        unfold rounds
        rw [List.takeWhile_cons_of_neg (by simpa using htime), List.length_nil]
      exact ⟨[], ⟨rfl, rfl⟩, by rw [hrounds]; rfl⟩

/-- A query is its request, and OK when that is and the answer has the size
of the record. -/
theorem query_iff {ρ : Type} {host : Host σ} (call : Out → ℕ → σ → Reply σ Out) (size : ℕ) (parse : Bytes → ρ)
    (dev : Device) (record : ρ) (s : σ) :
    let r := call ⟨none, some (host.stack s size), some 0⟩ size s
    let q := query host call size parse dev (some record) s
    q.dev = r.dev ∧ q.state = r.state ∧ (q.ret = .ok ↔ r.ret = .ok ∧ r.out.len = some size) := by
  intro r q
  have hq : q = _ := query_of_reply (show call _ size s = r from rfl) parse record
  by_cases hret : r.ret ≠ .ok
  · rw [if_pos hret] at hq
    rw [hq]
    exact ⟨rfl, rfl, iff_of_false hret fun h => hret h.1⟩
  rw [if_neg hret] at hq
  by_cases hlen : r.out.len ≠ some size
  · rw [if_pos hlen] at hq
    rw [hq]
    exact ⟨rfl, rfl, iff_of_false (by simp) fun h => hlen h.2⟩
  · rw [if_neg hlen] at hq
    rw [hq]
    exact ⟨rfl, rfl, iff_of_true rfl ⟨not_not.mp hret, not_not.mp hlen⟩⟩

/-- A query is no better than its request. -/
theorem query_run {ρ : Type} {host : Host σ} (call : Out → ℕ → σ → Reply σ Out) (size : ℕ) (parse : Bytes → ρ)
    (dev : Device) (record : ρ) (s : σ) :
    let r := call ⟨none, some (host.stack s size), some 0⟩ size s
    let q := query host call size parse dev (some record) s
    q.dev = r.dev ∧ q.state = r.state ∧ (q.ret = .ok → r.ret = .ok) := by
  obtain ⟨hdev, hstate, hret⟩ := query_iff call size parse dev record s
  exact ⟨hdev, hstate, fun h => (hret.mp h).1⟩

/-- What the calls request, with their results. -/
def requests (calls : List (Call × Result)) : List (Option UInt8 × Result) := calls.map fun x => (x.1.opcode, x.2)

/-- What opens a scan. -/
def opening : List (Option UInt8 × Result) :=
  [(some BLE_GET_CAP, .ok), (some BLE_SET_SCAN_PARAM, .ok), (some BLE_SCAN_START, .ok)]

/-- The calls open a scan, as far as they go: they are the first of its
requests, all were carried out, and the capabilities have their eight bytes. -/
def Opens (dev : Device) (s : σ) (calls : List (Call × Result)) : Prop :=
  requests calls <+: opening ∧ ∀ x ∈ calls.head?, (x.1.run host dev s).out.len = some 8

/-- A scan that was started: events are read in so many rounds, and the last
call stops it. -/
def Started (dev : Device) (s : σ) (rounds code : ℕ) (calls : List (Call × Result)) : Prop :=
  ∃ first reads stop ret, calls = first ++ reads ++ [(stop, ret)] ∧ Opens host dev s first ∧ requests first = opening ∧
    ReadsOn rounds reads ∧ stop.opcode = some BLE_SCAN_STOP ∧ code = if ret = .ok then 0 else 1

/-- A scan that was not started: the last call is the first of the opening
requests that was not carried out, and the command fails. -/
def Unstarted (dev : Device) (s : σ) (code : ℕ) (calls : List (Call × Result)) : Prop :=
  code = 1 ∧ ∃ done c ret, calls = done ++ [(c, ret)] ∧ Opens host dev s done ∧
    requests done ++ [(c.opcode, .ok)] <+: opening ∧ ¬Opens host dev s calls

theorem Opens.ok {host : Host σ} {dev : Device} {s : σ} {calls : List (Call × Result)} (h : Opens host dev s calls) :
    ∀ x ∈ calls, x.2 = .ok := by
  intro x hx
  have hmem : (x.1.opcode, x.2) ∈ opening := h.1.subset (List.mem_map_of_mem hx)
  have hall : ∀ y ∈ opening, y.2 = .ok := by simp [opening]
  exact hall _ hmem

/-- The rounds of a scan; the clock is read for its end first. -/
def scanRounds (seconds : ℕ) : List ℤ → ℕ
  | [] => 0
  | now :: clock => rounds (scanEnd now seconds) clock

/-- **A scan is a run of calls.** -/
theorem cmdBleScan_performs (dev : Device) {secondsText : Option Bytes} {clock : List ℤ} {s : σ} {r : Cmd σ}
    (h : cmdBleScan host dev secondsText clock s = some r) :
    ∃ calls, Performs host dev s calls r.dev r.state ∧
      (Started host dev s (scanRounds (secondsOf secondsText) clock) r.code calls ∨
        Unstarted host dev s r.code calls) := by
  set getCap : Call := .bleTransact BLE_GET_CAP none 0 (some (host.stack s 8)) 8 (some 0)
  set c := bleGetCap host dev (some (parseBleCap (host.stack s 8))) s with hc
  obtain ⟨hcdev, hcstate, hcret⟩ : c.dev = (getCap.run host dev s).dev ∧ c.state = (getCap.run host dev s).state ∧
      (c.ret = .ok ↔ (getCap.run host dev s).ret = .ok ∧ (getCap.run host dev s).out.len = some 8) :=
    query_iff (fun out capacity s => bleTransact host dev BLE_GET_CAP none 0 out.payload capacity out.len s) 8
      parseBleCap dev (parseBleCap (host.stack s 8)) s
  have hnone : Opens host dev s [] := ⟨List.nil_prefix, fun x hx => by cases hx⟩
  by_cases hcap : c.ret ≠ .ok
  · have hr : some ⟨1, [.failed .bleGetCap c.ret], c.dev, c.state⟩ = some r := (if_pos hcap).symm.trans h
    obtain rfl := Option.some.inj hr
    refine ⟨[(getCap, _)], ⟨proper_none, rfl, hcdev, hcstate⟩, .inr ⟨rfl, [], getCap, _, rfl, hnone, ⟨_, rfl⟩, ?_⟩⟩
    intro hopens
    exact hcap (hcret.mpr ⟨hopens.ok _ List.mem_cons_self, hopens.2 _ rfl⟩)
  obtain ⟨hcapok, hcaplen⟩ := hcret.mp (not_not.mp hcap)
  have hlen : ∀ {calls : List (Call × Result)}, ∀ x ∈ ((getCap, Result.ok) :: calls).head?,
      (x.1.run host dev s).out.len = some 8 := by
    rintro calls x hx
    obtain rfl := Option.some.inj hx
    exact hcaplen
  set cap := c.out.getD (parseBleCap [])
  set setParam : Call := .bleTransact BLE_SET_SCAN_PARAM (some (scanParamBytes
    (if cap.scanInterval ≠ 0 then cap.scanInterval else 16)
    (if cap.scanWindow ≠ 0 then cap.scanWindow else 16) 0 0x03 1 0))
    9 none 0 none
  have hproper : setParam.Proper := proper_some _
  set p := setParam.run host c.dev c.state with hp
  by_cases hparam : p.ret ≠ .ok
  · have hr : some ⟨1, [.bleCap cap, .failed .bleSetScanParam p.ret], p.dev, p.state⟩ = some r :=
      ((if_neg hcap).trans (if_pos hparam)).symm.trans h
    obtain rfl := Option.some.inj hr
    refine ⟨[(getCap, .ok), (setParam, p.ret)], ⟨proper_none, hcapok, ?_⟩, .inr ⟨rfl, [(getCap, .ok)], setParam, p.ret,
      rfl, ⟨⟨_, rfl⟩, hlen⟩, ⟨_, rfl⟩, fun hopens => hparam (hopens.ok (setParam, p.ret) (by simp))⟩⟩
    rw [← hcdev, ← hcstate]
    exact ⟨hproper, rfl, rfl, rfl⟩
  set start : Call := .bleTransact BLE_SCAN_START none 0 none 0 none
  set b := start.run host p.dev p.state with hb
  by_cases hstart : b.ret ≠ .ok
  · have hr : some ⟨1, [.bleCap cap, .failed .bleScanStart b.ret], b.dev, b.state⟩ = some r :=
      ((if_neg hcap).trans ((if_neg hparam).trans (if_pos hstart))).symm.trans h
    obtain rfl := Option.some.inj hr
    refine ⟨[(getCap, .ok), (setParam, .ok), (start, b.ret)], ⟨proper_none, hcapok, ?_⟩, .inr ⟨rfl,
      [(getCap, .ok), (setParam, .ok)], start, b.ret, rfl, ⟨⟨_, rfl⟩, hlen⟩, ⟨_, rfl⟩,
      fun hopens => hstart (hopens.ok (start, b.ret) (by simp))⟩⟩
    rw [← hcdev, ← hcstate]
    exact ⟨hproper, not_not.mp hparam, proper_none, rfl, rfl, rfl⟩
  · rcases clock with _ | ⟨now, clock⟩
    · have hr : none = some r := ((if_neg hcap).trans ((if_neg hparam).trans (if_neg hstart))).symm.trans h
      cases hr
    · have hr : ((scanLoop host b.dev (scanEnd now (secondsOf secondsText)) clock 0 b.state).map fun l =>
            let r := (bleScanStop host b.dev l.state).command .bleScanStop fun _ => [.scanStopped l.reports]
            { r with lines := [.bleCap cap, .scanStarted (secondsOf secondsText)] ++ l.lines ++ r.lines }) = some r :=
        ((if_neg hcap).trans ((if_neg hparam).trans (if_neg hstart))).symm.trans h
      obtain ⟨l, hl, rfl⟩ := Option.map_eq_some_iff.mp hr
      obtain ⟨reads, hreads, hon⟩ := scanLoop_performs host b.dev _ hl
      set stop : Call := .bleTransact BLE_SCAN_STOP none 0 none 0 none
      set e := stop.run host b.dev l.state with he
      have hfirst : Performs host dev s [(getCap, .ok), (setParam, .ok), (start, .ok)] b.dev b.state := by
        refine ⟨proper_none, hcapok, ?_⟩
        rw [← hcdev, ← hcstate]
        exact ⟨hproper, not_not.mp hparam, proper_none, not_not.mp hstart, rfl, rfl⟩
      have hlast : Performs host b.dev l.state [(stop, e.ret)] e.dev e.state := ⟨proper_none, rfl, rfl, rfl⟩
      refine ⟨_, ?_, .inl ⟨[(getCap, .ok), (setParam, .ok), (start, .ok)], reads, stop, e.ret, rfl,
        ⟨List.prefix_rfl, hlen⟩, rfl, hon, rfl, ?_⟩⟩
      · have hall := (hfirst.append hreads).append hlast
        rw [← e.command_dev .bleScanStop fun _ => [.scanStopped l.reports],
          ← e.command_state .bleScanStop fun _ => [.scanStopped l.reports]] at hall
        exact hall
      · exact e.command_code_eq

theorem isSome_of_ite {α : Type} {p : Prop} [Decidable p] {a : α} {o : Option α} (h : ¬p → o.isSome) :
    (if p then some a else o).isSome := by
  by_cases hp : p
  · rw [if_pos hp]
    rfl
  · rw [if_neg hp]
    exact h hp

/-- The command ends if the clock gets past the end of the scan. -/
theorem cmdBleScan_isSome (dev : Device) (secondsText : Option Bytes) {now : ℤ} {clock : List ℤ}
    (hlate : ∃ t ∈ clock, scanEnd now (secondsOf secondsText) < t) (s : σ) :
    (cmdBleScan host dev secondsText (now :: clock) s).isSome := by
  unfold cmdBleScan
  refine isSome_of_ite fun _ => isSome_of_ite fun _ => isSome_of_ite fun _ => ?_
  rw [Option.isSome_map]
  exact scanLoop_isSome host _ hlate _ _

/-- **A scan that was started is stopped.** Whatever the device and the wire
do, once the clock gets past the end of the scan the command has ended, and
was a run of calls. The opening requests come first, up to one that is not
carried out; then the exit code is 1, and there is no SCAN_STOP. If all three
are, an event is read each round until the time is over or a read fails with
another error than a timeout, then the last call is the one SCAN_STOP, and the
exit code is 0 exactly when that returned OK. -/
theorem scan_stops (dev : Device) (secondsText : Option Bytes) (now : ℤ) (clock : List ℤ)
    (hlate : ∃ t ∈ clock, scanEnd now (secondsOf secondsText) < t) (s : σ) :
    ∃ r calls, cmdBleScan host dev secondsText (now :: clock) s = some r ∧ Performs host dev s calls r.dev r.state ∧
      (Started host dev s (rounds (scanEnd now (secondsOf secondsText)) clock) r.code calls ∨
        Unstarted host dev s r.code calls) := by
  obtain ⟨r, hr⟩ := Option.isSome_iff_exists.mp (cmdBleScan_isSome host dev secondsText hlate s)
  obtain ⟨calls, hcalls⟩ := cmdBleScan_performs host dev hr
  exact ⟨r, calls, hr, hcalls⟩

/-- A device that answers the requests of a scan, and finds something. -/
def scanQueue : List InEvent :=
  let answer (seq : UInt16) (opcode : UInt8) (payload : Bytes) := InEvent.packet (frameBytes ({ Header.zero with
    refSeq := seq, chType := ChannelType.bleMgmt.code, msgType := MsgType.rsp.code,
    opcode := opcode }.forPayload payload)
    payload)
  [answer 1 BLE_GET_CAP (List.replicate 8 0), answer 2 BLE_SET_SCAN_PARAM [], answer 3 BLE_SCAN_START []] ++
    eventFrame.events ++ [answer 4 BLE_SCAN_STOP []]

/-- Five seconds, with time for one read. -/
theorem scan_stops_one :
    let host := Pipe.host Stack.zero silent
    ∃ r calls, cmdBleScan host freshDevice none [100, 101, 106] ⟨scanQueue, ()⟩ = some r ∧ r.code = 0 ∧
      Performs host freshDevice ⟨scanQueue, ()⟩ calls r.dev r.state ∧
      Started host freshDevice ⟨scanQueue, ()⟩ 1 0 calls := by
  intro host
  obtain ⟨r, calls, hr, hperf, hends⟩ :=
    scan_stops host freshDevice none 100 [101, 106] ⟨106, by decide, by decide⟩ ⟨scanQueue, ()⟩
  have hzero : (cmdBleScan host freshDevice none [100, 101, 106] ⟨scanQueue, ()⟩).map Cmd.code = some 0 := by
    decide +kernel
  have hcode : r.code = 0 := by
    rw [hr] at hzero
    exact Option.some.inj hzero
  rcases hends with hstarted | ⟨hone, -⟩
  · exact ⟨r, calls, hr, hcode, hperf, hcode ▸ hstarted⟩
  · exact absurd (hcode.symm.trans hone) Nat.zero_ne_one

/-! ### What is printed -/

/-- What the loop prints for events, and the number of reports after them. -/
def scanLines : UInt32 → List Frame → List Line × UInt32
  | reports, [] => ([], reports)
  | reports, f :: fs =>
    let e := scanEvent reports f.header (f.bytes.drop HEADER_LEN) f.header.payloadLen.toNat
    let r := scanLines e.2 fs
    (e.1 :: r.1, r.2)

/-- The number of a scan result. -/
def Line.number : Line → Option UInt32
  | scan number _ => some number
  | _ => none

/-- The scan results among the lines are numbered from `reports` on, and
`next` comes after them. -/
def Numbered (reports next : UInt32) (lines : List Line) : Prop :=
  let numbers := lines.filterMap Line.number
  numbers = (List.range numbers.length).map (fun k => reports + UInt32.ofNat k) ∧
    next = reports + UInt32.ofNat numbers.length

/-- An event is counted if it is printed as a scan result, under the next
number. -/
theorem scanEvent_cases (reports : UInt32) (h : Header) (payload : Bytes) (n : ℕ) :
    let e := scanEvent reports h payload n
    (∃ r, e = (.scan reports r, reports + 1)) ∨ e.1.number = none ∧ e.2 = reports := by
  intro e
  unfold e scanEvent
  split
  · split
    · exact .inr ⟨rfl, rfl⟩
    · exact .inl ⟨_, rfl⟩
  · exact .inr ⟨rfl, rfl⟩

theorem Numbered.cons {reports next : UInt32} {lines : List Line} (h : Numbered (reports + 1) next lines)
    (r : ScanResult) :
    Numbered reports next (.scan reports r :: lines) := by
  obtain ⟨hnumbers, hnext⟩ := h
  have hlater : ∀ k : ℕ, reports + UInt32.ofNat (k + 1) = reports + 1 + UInt32.ofNat k := fun k => by
    rw [UInt32.ofNat_add, UInt32.add_comm (UInt32.ofNat k), ← UInt32.add_assoc]
    rfl
  have hcons : (Line.scan reports r :: lines).filterMap Line.number = reports :: lines.filterMap Line.number := rfl
  unfold Numbered
  dsimp only
  rw [hcons, List.length_cons, List.range_succ_eq_map, List.map_cons, List.map_map, hlater]
  refine ⟨?_, hnext⟩
  rw [show reports + UInt32.ofNat 0 = reports from UInt32.add_zero reports]
  refine congrArg (reports :: ·) (hnumbers.trans (List.map_congr_left fun k _ => (hlater k).symm))

/-- **Scan results are numbered** in the order they are printed. -/
theorem scanLines_numbered (fs : List Frame) (reports : UInt32) :
    let printed := scanLines reports fs
    Numbered reports printed.2 printed.1 := by
  induction fs generalizing reports with
  | nil => exact ⟨rfl, (UInt32.add_zero reports).symm⟩
  | cons f fs ih =>
    have hprinted : scanLines reports (f :: fs) =
        let e := scanEvent reports f.header (f.bytes.drop HEADER_LEN) f.header.payloadLen.toNat
        (e.1 :: (scanLines e.2 fs).1, (scanLines e.2 fs).2) := rfl
    rw [hprinted]
    rcases scanEvent_cases reports f.header (f.bytes.drop HEADER_LEN) f.header.payloadLen.toNat with
      ⟨r, hscan⟩ | ⟨hother, hsame⟩
    · rw [hscan]
      exact (ih (reports + 1)).cons r
    · dsimp only
      rw [hsame]
      have hskip := ih reports
      unfold Numbered at hskip ⊢
      rw [List.filterMap_cons_none hother]
      exact hskip

theorem bleParseScanResult_append (p more : Bytes) :
    bleParseScanResult (p ++ more) p.length = bleParseScanResult p p.length := by
  unfold bleParseScanResult
  by_cases hlen : p.length < 16
  · rw [if_pos hlen, if_pos hlen]
  · have hget : ∀ i < 16, (p ++ more).getD i 0 = p.getD i 0 := fun i hi => List.getD_append p more 0 i (by omega)
    have hsix : ∀ n, n ≤ 10 → ((p ++ more).drop n).take 6 = (p.drop n).take 6 := by
      intro n hn
      rw [List.drop_append_of_le_length (by omega), List.take_append_of_le_length (by rw [List.length_drop]; omega)]
    rw [if_neg hlen, if_neg hlen, hget 0 (by omega), hget 1 (by omega), hget 2 (by omega), hget 3 (by omega),
      hsix 4 (by omega), hsix 10 (by omega)]

theorem scanEvent_append (reports : UInt32) (h : Header) (p more : Bytes) :
    scanEvent reports h (p ++ more) p.length = scanEvent reports h p p.length := by
  unfold scanEvent
  rw [bleParseScanResult_append]

/-- An event is handed over. -/
theorem acceptEvent_store {f : Frame} (hf : f.header.msgType = MsgType.evt.code) (s : σ) :
    acceptEvent 512 f.header f.bytes (eventOut host s) = (.ok, (eventOut host s).store f.header f.bytes) := by
  have hlen := f.length_payload
  have hle := f.length_le
  unfold acceptEvent
  rw [if_neg (not_not.mpr hf), if_neg (by omega), if_neg (by simp [eventOut])]

/-- What is printed for the objects an event was stored in. -/
theorem scanEvent_stored (reports : UInt32) (f : Frame) (s : σ) :
    let out := (eventOut host s).store f.header f.bytes
    scanEvent reports (out.header.getD .zero) (out.payload.getD []) (out.len.getD 0) =
      scanEvent reports f.header (f.bytes.drop HEADER_LEN) f.header.payloadLen.toNat := by
  intro out
  have hlen := f.length_payload
  have hdrop : (f.bytes.drop HEADER_LEN).length = f.header.payloadLen.toNat := by
    simp only [List.length_drop, HEADER_LEN]
    omega
  have hpayload : out.payload.getD [] = f.bytes.drop HEADER_LEN ++
      (host.stack s MAX_FRAME_LEN).drop (f.bytes.drop HEADER_LEN).length := by
    show Buffer.writeAt _ 0 ((f.bytes.drop HEADER_LEN).take f.header.payloadLen.toNat) = _
    rw [← hdrop, List.take_length, writeAt_zero]
  show scanEvent reports f.header (out.payload.getD []) f.header.payloadLen.toNat = _
  rw [hpayload, ← hdrop, scanEvent_append]

/-- What comes on EP2 IN while the loop runs: a frame, or a transfer that
times out. -/
def schedule (items : List (Option CutFrame)) : List InEvent :=
  items.flatMap fun
    | some f => f.events
    | none => [.timeout]

/-- A line for each event that comes. -/
theorem scanLoop_delivers (dev : Device) (endTime late : ℤ) (hlate : endTime < late) (clock : List ℤ) (s' : σ) :
    ∀ (items : List (Option CutFrame)) (readings : List ℤ) (reports : UInt32) (s : σ),
      (∀ f, some f ∈ items → f.header.msgType = MsgType.evt.code) → readings.length = items.length →
      (∀ t ∈ readings, t ≤ endTime) → Delivers host dev.timeoutMs s (schedule items) s' →
      let printed := scanLines reports ((items.filterMap id).map CutFrame.toFrame)
      scanLoop host dev endTime (readings ++ late :: clock) reports s = some ⟨printed.2, printed.1, s'⟩ := by
  intro items
  induction items with
  | nil =>
    intro readings reports s _ hlen _ hd
    obtain rfl : readings = [] := List.eq_nil_of_length_eq_zero hlen
    obtain rfl : s = s' := hd
    exact scanLoop_over (by omega)
  | cons item items ih =>
    intro readings reports s hevt hlen hin hd
    obtain ⟨now, readings, rfl⟩ : ∃ now rest, readings = now :: rest :=
      List.exists_cons_of_length_pos (by rw [hlen]; exact Nat.succ_pos _)
    obtain ⟨hnow, hin⟩ := List.forall_mem_cons.mp hin
    have hrest : ∀ f, some f ∈ items → f.header.msgType = MsgType.evt.code :=
      fun f hf => hevt f (List.mem_cons_of_mem _ hf)
    have hlen' : readings.length = items.length := Nat.succ.inj hlen
    have hread : bleReadEvent host dev (eventOut host s) MAX_FRAME_LEN s =
        receive host dev (acceptEvent 512) (eventOut host s) s := if_neg (by simp [eventOut])
    cases item with
    | none =>
      -- a read times out, and nothing is printed
      obtain ⟨s₁, hx, hd⟩ := hd
      rw [receive_of_timeout _ _ hx] at hread
      rw [List.cons_append, scanLoop_timeout hnow hread]
      exact ih readings reports s₁ hrest hlen' hin hd
    | some f =>
      obtain ⟨s₁, hf, hd⟩ := delivers_append.mp hd
      have haccept := acceptEvent_store host (hevt f List.mem_cons_self) s
      rw [receive_of_delivers _ _ f hf, acceptEvent_onFrame 512 f.toFrame, haccept] at hread
      rw [List.cons_append, scanLoop_event hnow hread, scanEvent_stored, ih readings _ s₁ hrest hlen' hin hd]
      rfl

/-- **The loop prints the events.** While the time is not over, and whatever
timed-out reads there are between them, the loop prints a line for each event
that comes, in order, counts the scan results among them and numbers them by
that, and takes nothing more from the wire. -/
theorem scan_prints (dev : Device) (endTime late : ℤ) (hlate : endTime < late) (clock : List ℤ) (s' : σ) :
    ∀ (items : List (Option CutFrame)) (readings : List ℤ) (reports : UInt32) (s : σ),
      (∀ f, some f ∈ items → f.header.msgType = MsgType.evt.code) → readings.length = items.length →
      (∀ t ∈ readings, t ≤ endTime) → Delivers host dev.timeoutMs s (schedule items) s' →
      let printed := scanLines reports ((items.filterMap id).map CutFrame.toFrame)
      scanLoop host dev endTime (readings ++ late :: clock) reports s = some ⟨printed.2, printed.1, s'⟩ ∧
        Numbered reports printed.2 printed.1 :=
  fun items readings reports s hevt hlen hin hd =>
    ⟨scanLoop_delivers host dev endTime late hlate clock s' items readings reports s hevt hlen hin hd,
      scanLines_numbered _ reports⟩

/-- A scan result of sixteen bytes. -/
def resultFrame : CutFrame :=
  (Frame.build
    { Header.zero with chType := ChannelType.bleMgmt.code, msgType := MsgType.evt.code, opcode := BLE_EVT_SCAN_RSP }
    (List.replicate 16 7) (by decide)).whole (Frame.build_le (by decide))

/-- Two scan results, with a timed-out read and another event between them. -/
theorem scan_prints_gap :
    let items := [some resultFrame, none, some eventFrame, some resultFrame]
    let printed := scanLines 0 [resultFrame.toFrame, eventFrame.toFrame, resultFrame.toFrame]
    scanLoop (Pipe.host Stack.zero silent) freshDevice 5 [1, 2, 3, 4, 6] 0 ⟨schedule items ++ [], ()⟩ =
        some ⟨printed.2, printed.1, ⟨[], ()⟩⟩ ∧ Numbered 0 printed.2 printed.1 ∧ printed.2 = 2 := by
  intro items printed
  have hevt : ∀ f, some f ∈ items → f.header.msgType = MsgType.evt.code := by
    intro f hf
    simp only [items, List.mem_cons, List.not_mem_nil, or_false, Option.some.injEq, reduceCtorEq, false_or] at hf
    rcases hf with rfl | rfl | rfl <;> decide
  obtain ⟨hloop, hnumbered⟩ := scan_prints (Pipe.host Stack.zero silent) freshDevice 5 6 (by decide) [] ⟨[], ()⟩ items
    [1, 2, 3, 4] 0 _ hevt rfl (by decide) (Pipe.delivers _ _ _ _ _ _)
  exact ⟨hloop, hnumbered, by decide +kernel⟩

end UsbMux
