/-
# Answers and the requests they answer

A peer may delay, repeat, reorder or drop its answers, but an RSP carries in
`ref_seq` the number of a frame written before. The numbers run from 1 to
65535 and round again (`CountsAt`), so a `transact` that takes an RSP with its
own number has the answer to its own frame, or one to a frame a whole round
of draws older.

Key definitions: `CountsAt`, `drawn`, `drawIndex`, `PeerAnswers`.
Key theorem: `response_correlation`.
-/
import UsbMux.Calls
import UsbMux.Lib.Cyclic

namespace UsbMux

open Counter

variable {σ : Type} {host : Host σ}

/-! ### The counter -/

/-- `n` numbers have been drawn since the counter stood at 1. -/
def CountsAt (dev : Device) (n : ℕ) : Prop := dev.nextSeq.toNat = cyclic 65535 n

theorem nextSeq_countsAt {dev : Device} {n : ℕ} (h : CountsAt dev n) : CountsAt (nextSeq dev).2 (n + 1) := by
  unfold CountsAt at *
  rw [cyclic_succ (by decide), ← h]
  have hlt := dev.nextSeq.toNat_lt
  simp only [nextSeq]
  by_cases hwrap : dev.nextSeq + 1 = 0
  · have htop : dev.nextSeq.toNat = 65535 := by
      have := congrArg UInt16.toNat hwrap
      simp at this
      omega
    rw [if_pos hwrap, if_pos htop]
    rfl
  · have htop : dev.nextSeq.toNat ≠ 65535 := by
      intro htop
      apply hwrap
      apply UInt16.toNat_inj.mp
      simp [htop]
    rw [if_neg hwrap, if_neg htop, UInt16.toNat_add]
    simp
    omega

/-- An opened device starts at 1. -/
theorem muxOpen_countsAt {ohost : OpenHost} {options : Option OpenOptions} {dev : Device}
    (h : (muxOpen ohost options).2.1 = some dev) : CountsAt dev 0 := by
  rcases muxOpen_device ohost options with hnone | ⟨_, -, hsome⟩
  · rw [hnone] at h
    cases h
  · rw [hsome] at h
    cases h
    rfl

theorem Call.run_countsAt {dev : Device} {n : ℕ} (h : CountsAt dev n) (host : Host σ) (s : σ) (c : Call) :
    CountsAt (c.run host dev s).dev (n + if c.draws then 1 else 0) := by
  rw [Call.run_dev]
  split
  · exact nextSeq_countsAt h
  · exact h

/-! ### The draws of a run -/

/-- The numbers drawn, in order. -/
def drawn (steps : List (Step σ)) : List UInt16 := (steps.filter (·.call.draws)).map (·.before.nextSeq)

/-- How many numbers were drawn before step `k`. -/
def drawIndex (steps : List (Step σ)) (k : ℕ) : ℕ := ((steps.take k).filter (·.call.draws)).length

theorem drawIndex_cons_succ (st : Step σ) (steps : List (Step σ)) (k : ℕ) :
    drawIndex (st :: steps) (k + 1) = (if st.call.draws then 1 else 0) + drawIndex steps k := by
  unfold drawIndex
  rw [List.take_succ_cons, List.filter_cons]
  split
  · rw [List.length_cons, Nat.add_comm]
  · rw [Nat.zero_add]

/-- A step that draws comes before the later ones in the count. -/
theorem drawIndex_lt {steps : List (Step σ)} {j k : ℕ} {st : Step σ} (hj : steps[j]? = some st)
    (hd : st.call.draws = true) (hlt : j < k) : drawIndex steps j < drawIndex steps k := by
  induction steps generalizing j k with
  | nil => simp at hj
  | cons st' steps ih =>
    obtain ⟨k, rfl⟩ := Nat.exists_eq_add_one_of_ne_zero (show k ≠ 0 by omega)
    cases j with
    | zero =>
      obtain rfl : st' = st := by simpa using hj
      rw [drawIndex_cons_succ, if_pos hd]
      exact Nat.lt_of_lt_of_le Nat.zero_lt_one (Nat.le_add_right _ _)
    | succ j =>
      rw [drawIndex_cons_succ, drawIndex_cons_succ]
      exact Nat.add_lt_add_left (ih (by simpa using hj) (by omega)) _

theorem step_countsAt {dev : Device} {n : ℕ} (h : CountsAt dev n) (host : Host σ) (s : σ) (c : Call) :
    CountsAt (c.step host dev s).reply.dev (n + if c.draws then 1 else 0) :=
  Call.run_countsAt h host.logged (s, []) c

/-- Along a run the counter follows the draws. -/
theorem run_countsAt {calls : List Call} {dev : Device} {s : σ} {n k : ℕ} {st : Step σ} (hn : CountsAt dev n)
    (hk : (run host calls dev s)[k]? = some st) : CountsAt st.before (n + drawIndex (run host calls dev s) k) := by
  induction calls generalizing dev s n k with
  | nil => simp [run] at hk
  | cons c cs ih =>
    rw [run_cons] at hk ⊢
    cases k with
    | zero =>
      obtain rfl : c.step host dev s = st := by simpa using hk
      exact hn
    | succ k =>
      rw [drawIndex_cons_succ, Call.step_call, ← Nat.add_assoc]
      exact ih (step_countsAt hn host s c) (by simpa using hk)

/-- The numbers drawn are the counter's, in order. -/
theorem drawn_run {calls : List Call} {dev : Device} {s : σ} {n : ℕ} (hn : CountsAt dev n) :
    (drawn (run host calls dev s)).map UInt16.toNat =
      (List.range' n (drawn (run host calls dev s)).length).map (cyclic 65535) := by
  induction calls generalizing dev s n with
  | nil => rfl
  | cons c cs ih =>
    have hrest := ih (s := (c.step host dev s).reply.state) (step_countsAt hn host s c)
    rw [run_cons, drawn, List.filter_cons, Call.step_call]
    by_cases hd : c.draws = true
    · rw [if_pos hd] at hrest ⊢
      rw [List.map_cons, List.map_cons, List.length_cons, List.range'_succ, List.map_cons, Call.step_before]
      exact congrArg₂ _ hn hrest
    · rw [if_neg hd] at hrest ⊢
      exact hrest

/-- A number that is drawn again is drawn a round later. -/
theorem draws_between {calls : List Call} {dev : Device} {s : σ} {n j k : ℕ} {st st' : Step σ} (hn : CountsAt dev n)
    (hj : (run host calls dev s)[j]? = some st') (hk : (run host calls dev s)[k]? = some st)
    (hd : st'.call.draws = true) (hlt : j < k) (hsame : st'.before.nextSeq = st.before.nextSeq) :
    65535 ≤ drawIndex (run host calls dev s) k - drawIndex (run host calls dev s) j := by
  have hindex := drawIndex_lt hj hd hlt
  have hcyc : cyclic 65535 (n + drawIndex (run host calls dev s) j) =
      cyclic 65535 (n + drawIndex (run host calls dev s) k) :=
    calc cyclic 65535 (n + drawIndex (run host calls dev s) j) = st'.before.nextSeq.toNat :=
          (run_countsAt hn hj).symm
      _ = st.before.nextSeq.toNat := congrArg UInt16.toNat hsame
      _ = cyclic 65535 (n + drawIndex (run host calls dev s) k) := run_countsAt hn hk
  rcases eq_or_le_of_cyclic_eq (Nat.add_le_add_left hindex.le n) hcyc with heq | hround <;> omega

/-! ### Correlation -/

/-- The peer answers frames it was sent: the RSP read in step `k` carries the
number of the frame written in step `answers k`, not a later one. -/
def PeerAnswers (steps : List (Step σ)) (answers : ℕ → ℕ) : Prop :=
  ∀ k st h, steps[k]? = some st → readRsp st.events = some h →
    answers k ≤ k ∧ ∃ st' w, steps[answers k]? = some st' ∧ wrote st'.events = some w ∧ h.refSeq = w.seq

theorem step_wrote {calls : List Call} {dev : Device} {s : σ} {st : Step σ} (h : st ∈ run host calls dev s) :
    (∀ w, wrote st.events = some w → st.call.draws = true ∧ w.seq = st.before.nextSeq) ∧
      (st.call.isTransact = true → st.reply.ret = .ok →
        ∃ w h, wrote st.events = some w ∧ readRsp st.events = some h ∧ Answers h w) := by
  obtain ⟨s', hst⟩ := run_step h
  obtain ⟨evs, hm, hseq, hok⟩ := st.call.run_wrote host.logged st.before (s', [])
  have hevs : st.events = evs := by
    rw [hst]
    exact hm.log
  have hret : st.reply.ret = (st.call.run host.logged st.before (s', [])).ret := by rw [hst]; rfl
  rw [hevs, hret]
  exact ⟨hseq, hok⟩

/-- **Response correlation.** Over every run from an opened device, with any
failures and any order of answers, a `transact` that returns OK has the
answer to its own frame, or one to a frame 65535 draws older. No number drawn
is 0, and 65535 draws in a row are different. -/
theorem response_correlation (ohost : OpenHost) (options : Option OpenOptions) (dev : Device)
    (hopen : (muxOpen ohost options).2.1 = some dev) (host : Host σ) (calls : List Call) (s : σ) :
    let steps := run host calls dev s
    (∀ answers, PeerAnswers steps answers → ∀ k st, steps[k]? = some st → st.call.isTransact = true →
      st.reply.ret = .ok → ∃ w h, wrote st.events = some w ∧ readRsp st.events = some h ∧ Answers h w ∧
        (answers k = k ∨ 65535 ≤ drawIndex steps k - drawIndex steps (answers k))) ∧
    (∀ seq ∈ drawn steps, seq ≠ 0) ∧
    ∀ i, (((drawn steps).drop i).take 65535).Nodup := by
  intro steps
  have hn := muxOpen_countsAt hopen
  have hdrawn : (drawn steps).map UInt16.toNat = _ := drawn_run hn
  refine ⟨?_, ?_, ?_⟩
  · intro answers hpeer k st hk htr hok
    obtain ⟨hseq, hans⟩ := step_wrote (List.mem_of_getElem? hk)
    obtain ⟨w, h, hw, hh, hanswers⟩ := hans htr hok
    refine ⟨w, h, hw, hh, hanswers, ?_⟩
    obtain ⟨hle, st', w', hj, hw', href⟩ := hpeer k st h hk hh
    obtain ⟨hdraws, hw'seq⟩ := (step_wrote (List.mem_of_getElem? hj)).1 w' hw'
    by_cases heq : answers k = k
    · exact .inl heq
    · -- an older frame under the same number
      have hsame : st'.before.nextSeq = st.before.nextSeq :=
        calc st'.before.nextSeq = w'.seq := hw'seq.symm
          _ = h.refSeq := href.symm
          _ = w.seq := hanswers.refSeq
          _ = st.before.nextSeq := (hseq w hw).2
      exact .inr (draws_between hn hj hk hdraws (show answers k < k by omega) hsame)
  · intro seq hmem h0
    have hmem' := List.mem_map_of_mem (f := UInt16.toNat) hmem
    rw [hdrawn, h0, List.mem_map] at hmem'
    obtain ⟨n, -, hzero⟩ := hmem'
    exact absurd hzero (cyclic_pos 65535 n).ne'
  · intro i
    apply List.Nodup.of_map UInt16.toNat
    rw [List.map_take, List.map_drop, hdrawn]
    exact nodup_cyclic_window 65535 0 _ i

/-- Three heartbeats on a fresh device, numbered 1, 2 and 3. The first answer
is in the queue twice, the second is lost. -/
def heartbeatSteps : List (Step (Pipe Unit)) :=
  run (Pipe.host Stack.zero silent)
    (List.replicate 3 (.transact ChannelType.sys.code 0 MsgType.cmd.code SYS_HEARTBEAT none 0 ⟨none, none, none⟩ 0))
    freshDevice ⟨[1, 1, 3].map fun refSeq => .packet (frameBytes ({ Header.zero with
      refSeq := refSeq, msgType := MsgType.rsp.code, opcode := SYS_HEARTBEAT }.forPayload []) []), ()⟩

/-- The heartbeat that is answered in each step. -/
def heartbeatAnswered (k : ℕ) : ℕ := if k = 1 then 0 else k

theorem heartbeatSteps_wrote {j : ℕ} {seq : UInt16}
    (h : ([some 1, some 2, some 3] : List (Option UInt16))[j]? = some (some seq)) :
    ∃ st w, heartbeatSteps[j]? = some st ∧ wrote st.events = some w ∧ w.seq = seq := by
  have hwrote : heartbeatSteps.map (fun st => (wrote st.events).map Header.seq) = [some 1, some 2, some 3] := by
    decide +kernel
  rw [← hwrote, List.getElem?_map, Option.map_eq_some_iff] at h
  obtain ⟨st, hst, hw⟩ := h
  obtain ⟨w, hw, hseq⟩ := Option.map_eq_some_iff.mp hw
  exact ⟨st, w, hst, hw, hseq⟩

theorem heartbeatSteps_peerAnswers : PeerAnswers heartbeatSteps heartbeatAnswered := by
  intro k st h hk hh
  have hread : heartbeatSteps.map (fun st => (readRsp st.events).map Header.refSeq) = [some 1, some 1, some 3] := by
    decide +kernel
  have href : ([some 1, some 1, some 3] : List (Option UInt16))[k]? = some (some h.refSeq) := by
    rw [← hread, List.getElem?_map, hk, Option.map_some, hh, Option.map_some]
  have hcol : heartbeatAnswered k ≤ k ∧
      ([some 1, some 2, some 3] : List (Option UInt16))[heartbeatAnswered k]? = some (some h.refSeq) := by
    rcases k with _ | _ | _ | k
    · exact ⟨le_rfl, href⟩
    · exact ⟨Nat.zero_le _, href⟩
    · exact ⟨le_rfl, href⟩
    · simp at href
  obtain ⟨st', w, hj, hw, hseq⟩ := heartbeatSteps_wrote hcol.2
  exact ⟨hcol.1, st', w, hj, hw, hseq.symm⟩

/-- The repeated answer fails the second heartbeat, and the third has its
own. -/
theorem response_correlation_repeated :
    heartbeatSteps.map (·.reply.ret) = [.ok, .errProto, .ok] ∧ heartbeatAnswered 1 = 0 ∧
      ∃ st w h, heartbeatSteps[2]? = some st ∧ wrote st.events = some w ∧ readRsp st.events = some h ∧ Answers h w ∧
        (heartbeatAnswered 2 = 2 ∨
          65535 ≤ drawIndex heartbeatSteps 2 - drawIndex heartbeatSteps (heartbeatAnswered 2)) := by
  have hrets : heartbeatSteps.map (·.reply.ret) = [.ok, .errProto, .ok] := by decide +kernel
  have hlast : (heartbeatSteps[2]?).map (·.reply.ret) = some .ok := by
    rw [← List.getElem?_map, hrets]
    rfl
  obtain ⟨st, hst, hok⟩ := Option.map_eq_some_iff.mp hlast
  have htr : st.call.isTransact = true := by
    have hcalls : (heartbeatSteps[2]?).map (·.call.isTransact) = some true := rfl
    rw [hst] at hcalls
    exact Option.some.inj hcalls
  obtain ⟨w, h, hans⟩ := (response_correlation ⟨true, .success, 0, some 0, 0, .success, .success⟩ none freshDevice rfl
    (Pipe.host Stack.zero silent) _ _).1 heartbeatAnswered heartbeatSteps_peerAnswers 2 st hst htr hok
  exact ⟨hrets, rfl, st, w, h, hst, hans⟩

end UsbMux
