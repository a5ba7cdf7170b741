/-
# The BLE scan over a link

A device that scans (`Scanner`): a service that sends the events of a scan
behind its answer to SCAN_START. Each round of the loop takes one event, so a
scan with fewer rounds than events leaves some on the link. The first of these
then meets the SCAN_STOP, which the device carries out and the tool reports as
failed: `ble-scan` exits with 0 exactly when there were as many rounds as
events at least. What stays on the link are the events behind that one, and
the answer to SCAN_STOP behind them (`scan_over_link`).

Key definitions: `Scanner`, `Scanner.react`, `Carried`.
Key theorems: `scanLoop_shows`, `bleScanStop_shows`, `scan_over_link`.
-/
import UsbMux.Scan

namespace UsbMux

variable {δ : Type}

/-- A service that scans: the events it sends once it has started. -/
structure Scanner (δ : Type) extends Service δ where
  found : δ → List Frame
  isEvt : ∀ d, ∀ f ∈ found d, f.header.msgType = MsgType.evt.code

def Scanner.react (S : Scanner δ) : React δ := fun h bytes d =>
  let (fs, d') := S.toService.react h bytes d
  if h.msgType = MsgType.cmd.code ∧ h.chType = ChannelType.bleMgmt.code ∧ h.opcode = BLE_SCAN_START then
    (fs ++ S.found d', d')
  else (fs, d')

/-- A BLE command of the tool. -/
def bleRequest (dev : Device) (opcode : UInt8) (payloadLen : ℕ) : Header :=
  request dev.nextSeq ChannelType.bleMgmt.code 0 MsgType.cmd.code opcode payloadLen

theorem Scanner.answersThen_start (S : Scanner δ) (dev : Device) (payloadLen : ℕ) :
    S.AnswersThen S.react (bleRequest dev BLE_SCAN_START payloadLen) S.found := by
  intro b d
  set w := bleRequest dev BLE_SCAN_START payloadLen
  have hstart : w.msgType = MsgType.cmd.code ∧ w.chType = ChannelType.bleMgmt.code ∧ w.opcode = BLE_SCAN_START :=
    ⟨rfl, rfl, rfl⟩
  unfold Scanner.react
  exact if_pos hstart

theorem Scanner.answersThen (S : Scanner δ) (dev : Device) {opcode : UInt8} (h : opcode ≠ BLE_SCAN_START)
    (payloadLen : ℕ) : S.AnswersThen S.react (bleRequest dev opcode payloadLen) fun _ => [] := by
  intro b d
  set w := bleRequest dev opcode payloadLen
  have hother : ¬(w.msgType = MsgType.cmd.code ∧ w.chType = ChannelType.bleMgmt.code ∧ w.opcode = BLE_SCAN_START) :=
    fun hstart => h hstart.2.2
  rw [List.append_nil]
  unfold Scanner.react
  exact if_neg hother

variable (stack : Stack) (W : Transport)

/-- A read of the loop over a link. -/
theorem bleReadEvent_shows (react : React δ) {s : Link δ} {t : Channel δ} (h : s.Shows t) (dev : Device) :
    let out := eventOut (Link.host stack W react) s
    let r := bleReadEvent (Link.host stack W react) dev out 512 s
    let r' := t.take (acceptEvent 512) out
    r.1 = r'.1 ∧ r.2.1 = r'.2.1 ∧ r.2.2.Shows r'.2.2 := by
  intro out r r'
  have hr : r = receive (Link.host stack W react) dev (acceptEvent 512) out s := if_neg (by simp [out, eventOut])
  rw [hr]
  exact h.receive stack W react (acceptEvent_onFrame 512) dev out

/-- **The loop over a link** prints as many events as it has rounds, and
leaves the others. -/
theorem scanLoop_shows (react : React δ) (dev : Device) {endTime late : ℤ} (hlate : endTime < late) (clock : List ℤ)
    (d : δ) : ∀ (readings : List ℤ) (events : List Frame) (reports : UInt32) (s : Link δ),
    (∀ t ∈ readings, t ≤ endTime) → (∀ f ∈ events, f.header.msgType = MsgType.evt.code) → s.Shows ⟨events, d⟩ →
    let printed := scanLines reports (events.take readings.length)
    ∃ s', scanLoop (Link.host stack W react) dev endTime (readings ++ late :: clock) reports s =
        some ⟨printed.2, printed.1, s'⟩ ∧ s'.Shows ⟨events.drop readings.length, d⟩ := by
  intro readings
  induction readings with
  | nil =>
    intro events reports s _ _ hs printed
    exact ⟨s, scanLoop_over (by omega), hs⟩
  | cons now readings ih =>
    intro events reports s hin hevt hs printed
    obtain ⟨hnow, hin⟩ := List.forall_mem_cons.mp hin
    have hu := bleReadEvent_shows stack W react hs dev
    dsimp only at hu
    rcases hread : bleReadEvent (Link.host stack W react) dev (eventOut (Link.host stack W react) s) 512 s with
      ⟨ret, out, s₁⟩
    rw [hread] at hu
    rcases events with _ | ⟨f, events⟩
    · -- nothing is left, and the read times out
      obtain ⟨hret, -, hs₁⟩ := hu
      obtain rfl : ret = .errTimeout := hret
      rw [List.cons_append, scanLoop_timeout hnow hread]
      obtain ⟨s', hloop, hshows⟩ := ih [] reports s₁ hin (List.forall_mem_nil _) hs₁
      exact ⟨s', hloop.trans (by rw [List.take_nil]; rfl), by rw [List.drop_nil] at hshows ⊢; exact hshows⟩
    · obtain ⟨hf, hevt⟩ := List.forall_mem_cons.mp hevt
      have htake : Channel.take (acceptEvent 512) (eventOut (Link.host stack W react) s) ⟨f :: events, d⟩ =
          (.ok, (eventOut (Link.host stack W react) s).store f.header f.bytes, ⟨events, d⟩) := by
        simp only [Channel.take, acceptEvent_store (Link.host stack W react) hf s]
      rw [htake] at hu
      obtain ⟨hret, hout, hs₁⟩ := hu
      obtain rfl : ret = .ok := hret
      obtain rfl := hout
      obtain ⟨s', hloop, hshows⟩ := ih events (scanEvent reports f.header (f.bytes.drop HEADER_LEN)
        f.header.payloadLen.toNat).2 s₁ hin hevt hs₁
      refine ⟨s', ?_, hshows⟩
      rw [List.cons_append, scanLoop_event hnow hread, scanEvent_stored, hloop]
      rfl

/-! ### The command -/

/-- The device carries a request out, and answers with so many bytes. -/
def Carried (x : UInt16 × Bytes × δ) (n : ℕ) : Prop := x.1 = DEV_STATUS_OK ∧ x.2.1.length = n

/-- A caller without a buffer wants an empty answer. -/
theorem Service.hand_none (S : Service δ) (h : Header) (p : Bytes) (d : δ) :
    (S.hand h p d 0 ⟨none, none, none⟩).1 = .ok ↔ Carried (S.serve h p d) 0 := by
  unfold Service.hand
  rcases S.serve h p d with ⟨status, answer, d'⟩
  dsimp only
  unfold Carried
  dsimp only
  split_ifs with hstatus hlong harg
  · exact iff_of_false (by simp) fun hc => hstatus hc.1
  · exact iff_of_false (by simp) fun hc => absurd hc.2 (Nat.ne_of_gt hlong)
  · exact iff_of_false (by simp) fun hc => harg.1 (List.eq_nil_of_length_eq_zero hc.2)
  · exact iff_of_true rfl ⟨not_not.mp hstatus, Nat.eq_zero_of_not_pos hlong⟩

/-- A BLE command over a link to a device that answers. -/
theorem bleTransact_shows (S : Service δ) {react : React δ} {more : δ → List Frame} {s : Link δ} (hs : s.AtRest)
    (dev : Device) (opcode : UInt8) {payload : Option Bytes} {payloadLen : ℕ} (hfits : Fits 512 payload payloadLen)
    (hp : ∀ p ∈ payload, payloadLen ≤ p.length) (hreact : S.AnswersThen react (bleRequest dev opcode payloadLen) more) :
    let x := S.serve (bleRequest dev opcode payloadLen) ((payload.getD []).take payloadLen) s.device
    let r := bleTransact (Link.host stack W react) dev opcode payload payloadLen none 0 none s
    (r.ret = .ok ↔ Carried x 0) ∧ r.dev = (nextSeq dev).2 ∧ r.state.Shows ⟨more x.2.2, x.2.2⟩ := by
  intro x r
  have ht := hs.shows.transact stack W react dev ChannelType.bleMgmt.code 0 MsgType.cmd.code opcode hp
    ⟨none, none, none⟩ 0
  rw [S.transact_then dev ChannelType.bleMgmt.code 0 opcode hfits hreact,
    S.transact_hand dev ChannelType.bleMgmt.code 0 opcode hfits] at ht
  obtain ⟨hret, -, hdev, hshows⟩ := ht
  refine ⟨?_, hdev, hshows⟩
  rw [show r.ret = _ from hret]
  exact S.hand_none _ _ _

/-- SCAN_STOP behind events that were not read: the device carries it out, but
the tool takes one of them for the answer. -/
theorem bleScanStop_shows (S : Scanner δ) {s : Link δ} {events : List Frame} {d : δ} (hs : s.Shows ⟨events, d⟩)
    (hevt : ∀ f ∈ events, f.header.msgType = MsgType.evt.code) (dev : Device) :
    let x := S.serve (bleRequest dev BLE_SCAN_STOP 0) [] d
    let r := bleScanStop (Link.host stack W S.react) dev s
    (r.ret = .ok ↔ events = [] ∧ Carried x 0) ∧
      r.state.Shows ⟨(events ++ [S.answer (bleRequest dev BLE_SCAN_STOP 0) [] d]).tail, x.2.2⟩ := by
  intro x r
  rcases events with _ | ⟨f, fs⟩
  · obtain ⟨hrest, hdevice⟩ := hs.atRest
    obtain ⟨hret, -, hshows⟩ := bleTransact_shows stack W S.toService hrest dev BLE_SCAN_STOP fits_none proper_none
      (S.answersThen dev (by decide) 0)
    rw [hdevice] at hret hshows
    exact ⟨hret.trans (and_iff_right rfl).symm, hshows⟩
  · have hmsg : f.header.msgType = MsgType.evt.code := hevt f List.mem_cons_self
    have ht := hs.transact stack W S.react dev ChannelType.bleMgmt.code 0 MsgType.cmd.code BLE_SCAN_STOP proper_none
      ⟨none, none, none⟩ 0
    rw [S.transact_behind dev ChannelType.bleMgmt.code 0 BLE_SCAN_STOP fits_none (S.answersThen dev (by decide) 0)
      ⟨none, none, none⟩ 0 f fs d fun h => absurd (hmsg.symm.trans h.1) (by decide)] at ht
    have hret : r.ret = .errProto := ht.ret
    refine ⟨?_, ht.state⟩
    rw [hret]
    exact iff_of_false (by simp) fun h => absurd h.1 (by simp)

theorem failed_code {σ : Type} {o : Option (Cmd σ)} {r : Cmd σ} {started good : Prop} {Q : Cmd σ → Prop}
    (hr : o = some r) (hcode : r.code = 1) (hno : ¬started) :
    ∃ r, o = some r ∧ (r.code = 0 ↔ started ∧ good) ∧ (started → Q r) :=
  ⟨r, hr, iff_of_false (by rw [hcode]; exact Nat.one_ne_zero) fun h => hno h.1, fun h => absurd h hno⟩

/-- The parameters of a scan: those the device reports, and 16 for one that is
0. -/
def scanParam (cap : BleCap) : Bytes :=
  scanParamBytes (if cap.scanInterval ≠ 0 then cap.scanInterval else 16)
    (if cap.scanWindow ≠ 0 then cap.scanWindow else 16) 0 0x03 1 0

/-- **The scan over a link.** However the wire takes and cuts the frames, a
scan that the device starts prints an event for each round of its loop, as
long as there are events, and the device carries the SCAN_STOP out. But the
command exits with 0 only if there were as many rounds as events at least.
Otherwise the first event too many is taken for the answer to SCAN_STOP, and
the others are left on the link with that answer behind them. -/
theorem scan_over_link (S : Scanner δ) {s : Link δ} (hs : s.AtRest) (dev : Device) (secondsText : Option Bytes)
    (now late : ℤ) (readings clock : List ℤ) (hin : ∀ t ∈ readings, t ≤ scanEnd now (secondsOf secondsText))
    (hlate : scanEnd now (secondsOf secondsText) < late) :
    let dev₁ := (nextSeq dev).2
    let dev₂ := (nextSeq dev₁).2
    let dev₃ := (nextSeq dev₂).2
    let a := S.serve (bleRequest dev BLE_GET_CAP 0) [] s.device
    let p := S.serve (bleRequest dev₁ BLE_SET_SCAN_PARAM 9) (scanParam (parseBleCap a.2.1)) a.2.2
    let b := S.serve (bleRequest dev₂ BLE_SCAN_START 0) [] p.2.2
    let e := S.serve (bleRequest dev₃ BLE_SCAN_STOP 0) [] b.2.2
    let events := S.found b.2.2
    let started := Carried a 8 ∧ Carried p 0 ∧ Carried b 0
    ∃ r, cmdBleScan (Link.host stack W S.react) dev secondsText (now :: (readings ++ late :: clock)) s = some r ∧
      (r.code = 0 ↔ started ∧ events.length ≤ readings.length ∧ Carried e 0) ∧
      (started → (∃ last, r.lines = [.bleCap (parseBleCap a.2.1), .scanStarted (secondsOf secondsText)] ++
          (scanLines 0 (events.take readings.length)).1 ++ [last]) ∧
        r.state.Shows
          ⟨(events.drop readings.length ++ [S.answer (bleRequest dev₃ BLE_SCAN_STOP 0) [] b.2.2]).tail, e.2.2⟩) := by
  intro dev₁ dev₂ dev₃ a p b e events started
  set rc := bleGetCap (Link.host stack W S.react) dev (some (parseBleCap (stack.bytes 8))) s with hrc
  obtain ⟨hcret, hcout, hcdev, hcrest, hcdevice⟩ : (rc.ret = .ok ↔ Carried a 8) ∧
      (rc.ret = .ok → rc.out = some (parseBleCap a.2.1)) ∧ rc.dev = dev₁ ∧ rc.state.AtRest ∧ rc.state.device = a.2.2 :=
    query_direct stack W S.toService hs dev ChannelType.bleMgmt.code 0 BLE_GET_CAP (S.answersThen dev (by decide) 0) 8
      parseBleCap (parseBleCap (stack.bytes 8))
  by_cases hcap : rc.ret ≠ .ok
  · exact failed_code (if_pos hcap) rfl fun h => hcap (hcret.mpr h.1)
  have hcapok : rc.ret = .ok := not_not.mp hcap
  have hcap' : rc.out.getD (parseBleCap []) = parseBleCap a.2.1 := by rw [hcout hcapok, Option.getD_some]
  -- the parameters
  set rp := bleTransact (Link.host stack W S.react) rc.dev BLE_SET_SCAN_PARAM
    (some (scanParam (rc.out.getD (parseBleCap []))))
    9 none 0 none rc.state with hrp
  obtain ⟨hpret, hpdev, hpshows⟩ : (rp.ret = .ok ↔ Carried p 0) ∧ rp.dev = dev₂ ∧ rp.state.Shows ⟨[], p.2.2⟩ := by
    rw [hrp, hcap', hcdev]
    have ht := bleTransact_shows stack W S.toService hcrest dev₁ BLE_SET_SCAN_PARAM
      (show Fits 512 (some (scanParam (parseBleCap a.2.1))) 9 from ⟨by simp, by omega, by omega⟩)
      (fun q hq => Option.mem_some.mp hq ▸ Nat.le_refl 9) (S.answersThen dev₁ (by decide) 9)
    rw [hcdevice] at ht
    exact ht
  by_cases hparam : rp.ret ≠ .ok
  · exact failed_code ((if_neg hcap).trans (if_pos hparam)) rfl fun h => hparam (hpret.mpr h.2.1)
  -- the start
  obtain ⟨hprest, hpdevice⟩ := hpshows.atRest
  set rb := bleTransact (Link.host stack W S.react) rp.dev BLE_SCAN_START none 0 none 0 none rp.state with hrb
  obtain ⟨hbret, hbdev, hbshows⟩ : (rb.ret = .ok ↔ Carried b 0) ∧ rb.dev = dev₃ ∧ rb.state.Shows ⟨events, b.2.2⟩ := by
    rw [hrb, hpdev]
    have ht := bleTransact_shows stack W S.toService hprest dev₂ BLE_SCAN_START fits_none proper_none
      (S.answersThen_start dev₂ 0)
    rw [hpdevice] at ht
    exact ht
  by_cases hstart : rb.ret ≠ .ok
  · exact failed_code ((if_neg hcap).trans ((if_neg hparam).trans (if_pos hstart))) rfl
      fun h => hstart (hbret.mpr h.2.2)
  have hstarted : started := ⟨hcret.mp hcapok, hpret.mp (not_not.mp hparam), hbret.mp (not_not.mp hstart)⟩
  -- the loop, and the stop behind it
  obtain ⟨s', hloop, hshows⟩ := scanLoop_shows stack W S.react rb.dev hlate clock b.2.2 readings events 0 rb.state hin
    (S.isEvt _) hbshows
  obtain ⟨heret, hstop⟩ := bleScanStop_shows stack W S hshows
    (fun f hf => S.isEvt _ f (List.mem_of_mem_drop hf)) rb.dev
  have hcarried : S.serve (bleRequest rb.dev BLE_SCAN_STOP 0) [] b.2.2 = e := by rw [hbdev]
  rw [hcarried] at heret hstop
  rw [List.drop_eq_nil_iff] at heret
  set re := bleScanStop (Link.host stack W S.react) rb.dev s'
  refine ⟨_, ((if_neg hcap).trans ((if_neg hparam).trans (if_neg hstart))).trans (congrArg (Option.map _) hloop),
    ?_, ?_⟩
  · exact re.command_code_iff.trans (heret.trans (and_iff_right hstarted).symm)
  · intro _
    obtain ⟨last, hlast⟩ := re.command_line .bleScanStop (.scanStopped (scanLines 0 (events.take readings.length)).2)
    refine ⟨⟨last, ?_⟩, ?_⟩
    · show [.bleCap (rc.out.getD (parseBleCap [])), .scanStarted _] ++ _ ++ (re.command .bleScanStop _).lines = _
      rw [hlast, hcap']
    · rw [hbdev, ← re.command_state .bleScanStop fun _ => [.scanStopped (scanLines 0 (events.take readings.length)).2]]
        at hstop
      exact hstop

/-- Two events are found in each scan. -/
def twoEvents : Scanner Unit where
  serve h _ d := (DEV_STATUS_OK, if h.opcode = BLE_GET_CAP then List.replicate 8 0 else [], d)
  absorb _ _ d := d
  length_le h p d := by
    dsimp only
    split_ifs
    · exact Nat.le_of_ble_eq_true rfl
    · exact Nat.zero_le _
  found _ := [eventFrame.toFrame, eventFrame.toFrame]
  isEvt _ f hf := by
    simp only [List.mem_cons, List.not_mem_nil, or_false, or_self] at hf
    rw [hf]
    decide

/-- The clock leaves time for one of them. -/
theorem scan_over_link_one :
    ∃ r, cmdBleScan (Link.host Stack.zero Transport.bytewise twoEvents.react) freshDevice none [100, 101, 106]
        ⟨[], [], 0, ()⟩ = some r ∧ r.code ≠ 0 ∧
      r.state.Shows
        ⟨[twoEvents.answer (request 4 ChannelType.bleMgmt.code 0 MsgType.cmd.code BLE_SCAN_STOP 0) [] ()], ()⟩ := by
  obtain ⟨r, hr, hcode, hstarted⟩ := scan_over_link Stack.zero Transport.bytewise twoEvents (s := ⟨[], [], 0, ()⟩)
    ⟨rfl, rfl⟩ freshDevice none 100 106 [101] [] (by decide) (by decide)
  obtain ⟨-, hleft⟩ := hstarted ⟨⟨rfl, rfl⟩, ⟨rfl, rfl⟩, rfl, rfl⟩
  refine ⟨r, hr, fun h => ?_, hleft⟩
  exact absurd (hcode.mp h).2.1 (by decide)

end UsbMux
