import Mathlib.Algebra.GroupWithZero.Nat
import PirMesh.Library.Paced

/-! # Heartbeat — Publication (`app_heartbeat.c`)

A publication is set with a count log and a period log; the poll every 100 ms sends
the heartbeats.  The counter and its log form are both rewritten at each of them.

As many heartbeats go out as the count log says, more than the period apart
(`meshHeartbeatPubPoll_count`).  A period log of zero counts as one second: it does
not turn the publication off (`meshHeartbeatPubPoll_period_zero`). -/

namespace PirMesh

open Pacing

/-! ### The state and its inputs -/

/-- `mesh_heartbeat_pub_str` -/
structure MeshHeartbeatPub where
  dstAdr : BitVec 16
  cntVal : BitVec 16
  cntLog : BitVec 8
  perLog : BitVec 8
  ttl : BitVec 8
  feature : BitVec 16
  netkeyidx : BitVec 16
  deriving DecidableEq, Repr

/-- The publication and the variables of the module. -/
structure HeartbeatState where
  pub : MeshHeartbeatPub
  hbPub100ms : BitVec 32
  hbStsChange : BitVec 8
  deriving DecidableEq, Repr

/-- `mesh_cfg_model_heartbeat_pub_get_t`, the message that sets it. -/
structure HeartbeatPubSet where
  dst : BitVec 16
  countLog : BitVec 8
  periodLog : BitVec 8
  ttl : BitVec 8
  features : BitVec 16
  netkeyindex : BitVec 16
  deriving DecidableEq, Repr

/-- The rest of the node. -/
structure HeartbeatNode where
  /-- `mesh_net_key_find` answers with a place of the key table. -/
  netKeyFind : BitVec 16 → Bool
  relay : Bool
  gattProxy : Bool
  frid : Bool
  lpnLinkOk : Bool

/-- `mesh_hb_msg_t`, with its destination. -/
structure HeartbeatMsg where
  iniTTL : BitVec 7
  fea : BitVec 16
  dst : BitVec 16
  deriving DecidableEq, Repr

/-! ### Count logs -/

def getCntLogToVal (val : BitVec 8) : BitVec 16 :=
  if val = 0 ∨ (0x11 < val ∧ val < 0xff) then 0
  else if val = 0x11 then 0xfffe
  else if val = 0xff then 0xffff
  else 1 <<< (val.toNat - 1)

/-- The loop over the bits. -/
def getHighBits (val : BitVec 16) : BitVec 8 :=
  match (List.range 16).find? fun i => val.toNat < 2 ^ i with
  | some i => BitVec.ofNat 8 i - 1
  | none => 15

def calHeartbeatCountLog (val : BitVec 16) : BitVec 8 :=
  if val = 0 then 0 else if val = 0xffff then 0xff else getHighBits val + 1

/-! ### Setting and polling -/

def meshCmdSigHeartbeatPubSet (s : HeartbeatState) (p : HeartbeatPubSet) (now100ms : BitVec 32) :
    HeartbeatState where
  pub :=
    { dstAdr := p.dst
      cntVal := getCntLogToVal p.countLog
      cntLog := p.countLog
      perLog := p.periodLog
      ttl := p.ttl
      feature := p.features &&& 0x000f
      netkeyidx := p.netkeyindex }
  -- the first heartbeat is due at once
  hbPub100ms := now100ms - 0x80000000
  hbStsChange := s.hbStsChange

def meshHeartbeatCalFeaturePart (node : HeartbeatNode) (feature : BitVec 16) : BitVec 16 :=
  let bit (i : ℕ) (on : Bool) : BitVec 16 := if feature.getLsbD i ∧ on then 1 <<< i else 0
  bit 0 node.relay ||| bit 1 node.gattProxy ||| bit 2 node.frid ||| bit 3 node.lpnLinkOk

/-- `friend_cmd_send_fn` with `CMD_CTL_HEARTBEAT` -/
def heartbeatMsg (node : HeartbeatNode) (pub : MeshHeartbeatPub) : HeartbeatMsg :=
  ⟨pub.ttl.setWidth 7, meshHeartbeatCalFeaturePart node pub.feature, pub.dstAdr⟩

/-- The period in seconds, `none` where the poll returns. -/
def heartbeatPbPer (perLog : BitVec 8) : Option (BitVec 32) :=
  if perLog = 0 then some 1
  else if perLog ≤ 0x11 then some (1 <<< (perLog.toNat - 1))
  else none

/-- The counters after a periodic heartbeat, `none` for a prohibited log. -/
def heartbeatCntStep (pub : MeshHeartbeatPub) : Option MeshHeartbeatPub :=
  if pub.cntLog = 0xff then some pub
  else if pub.cntLog ≤ 0x11 then
    let cntVal := pub.cntVal - 1
    some { pub with cntVal, cntLog := calHeartbeatCountLog cntVal }
  else none

/-- The periodic branch: more to send, no feature change, and the period is over. -/
def heartbeatPeriodic (s : HeartbeatState) (per now100ms : BitVec 32) : Prop :=
  s.pub.cntVal ≠ 0 ∧ s.hbStsChange = 0 ∧ per * 10 < now100ms - s.hbPub100ms

instance (s : HeartbeatState) (per now100ms : BitVec 32) :
    Decidable (heartbeatPeriodic s per now100ms) := inferInstanceAs (Decidable (_ ∧ _))

/-- The state after the poll, and the heartbeat it sends; `clock` is `clock_time()`. -/
def meshHeartbeatPubPoll (node : HeartbeatNode) (s : HeartbeatState) (now100ms clock : BitVec 32) :
    HeartbeatState × Option HeartbeatMsg :=
  if s.pub.dstAdr ≠ 0 ∧ node.netKeyFind s.pub.netkeyidx then
    match heartbeatPbPer s.pub.perLog with
    | none => (s, none)
    | some per =>
      if heartbeatPeriodic s per now100ms then
        match heartbeatCntStep s.pub with
        | none => ({ s with hbPub100ms := now100ms }, none)
        | some pub => ({ s with pub, hbPub100ms := now100ms }, some (heartbeatMsg node pub))
      -- of a feature change
      else if s.hbStsChange ≠ 0 ∧ 1 * 16 < clock - s.hbPub100ms then
        ({ s with hbPub100ms := now100ms, hbStsChange := s.hbStsChange - 1 },
          some (heartbeatMsg node s.pub))
      else (s, none)
  else (s, none)

/-! ### A run of polls -/

/-- The state before poll `n`; the polls come at `time` and `clock`. -/
def heartbeatRun (node : HeartbeatNode) (s : HeartbeatState) (time : ℕ → ℕ)
    (clock : ℕ → BitVec 32) :
    ℕ → HeartbeatState
  | 0 => s
  | n + 1 => (meshHeartbeatPubPoll node (heartbeatRun node s time clock n)
      (BitVec.ofNat 32 (time n)) (clock n)).1

/-- Poll `n` sends a heartbeat. -/
def HeartbeatSent (node : HeartbeatNode) (s : HeartbeatState) (time : ℕ → ℕ) (clock : ℕ → BitVec 32)
    (n : ℕ) : Prop :=
  (meshHeartbeatPubPoll node (heartbeatRun node s time clock n)
    (BitVec.ofNat 32 (time n)) (clock n)).2.isSome

instance (node : HeartbeatNode) (s : HeartbeatState) (time : ℕ → ℕ) (clock : ℕ → BitVec 32) :
    DecidablePred (HeartbeatSent node s time clock) :=
  fun _ => inferInstanceAs (Decidable (_ = true))

/-- What a count log stands for. -/
def heartbeatCount (cntLog : BitVec 8) : ℕ∞ :=
  if cntLog = 0xff then ⊤
  else if cntLog = 0 then 0
  else if cntLog = 0x11 then 0xfffe
  else ((2 ^ (cntLog.toNat - 1) : ℕ) : ℕ∞)

/-- The period in ticks of 100 ms. -/
def heartbeatPeriodTicks (perLog : BitVec 8) : ℕ := 10 * 2 ^ (perLog.toNat - 1)

/-! ### Count logs are kept up -/

theorem calHeartbeatCountLog_le {val : BitVec 16} (h : val ≠ 0xffff) :
    calHeartbeatCountLog val ≤ 0x11 := by
  unfold calHeartbeatCountLog
  rw [if_neg h]
  split_ifs
  · decide
  · unfold getHighBits
    cases hf : (List.range 16).find? fun i => val.toNat < 2 ^ i with
    | none => decide
    | some i =>
      have hi := List.mem_range.mp (List.mem_of_find?_eq_some hf)
      dsimp only
      rw [BitVec.sub_add_cancel, BitVec.le_def, BitVec.toNat_ofNat]
      exact (Nat.mod_le i _).trans (hi.le.trans (by decide))

theorem heartbeatPbPer_some {perLog : BitVec 8} (h : perLog ≤ 0x11) :
    ∃ per, heartbeatPbPer perLog = some per ∧ (per * 10).toNat = heartbeatPeriodTicks perLog := by
  have hall : ∀ l : BitVec 8, l ≤ 0x11 →
      (heartbeatPbPer l).map (fun per => (per * 10).toNat) = some (heartbeatPeriodTicks l) := by
    decide +kernel
  exact Option.map_eq_some_iff.mp (hall perLog h)

theorem getCntLogToVal_count {cntLog : BitVec 8} (h : cntLog ≤ 0x11) :
    heartbeatCount cntLog = (getCntLogToVal cntLog).toNat := by
  have hall : ∀ l : BitVec 8, l ≤ 0x11 → l ≠ 0xff ∧
      (l = 0 → (getCntLogToVal l).toNat = 0) ∧ (l = 0x11 → (getCntLogToVal l).toNat = 0xfffe) ∧
      (l ≠ 0 → l ≠ 0x11 → (getCntLogToVal l).toNat = 2 ^ (l.toNat - 1)) := by
    decide +kernel
  obtain ⟨hne, h0, h11, hrest⟩ := hall cntLog h
  unfold heartbeatCount
  rw [if_neg hne]
  split_ifs with hz hm
  · rw [h0 hz, Nat.cast_zero]
  · rw [h11 hm]
    rfl
  · rw [hrest hz hm]

/-! ### One poll -/

section

variable {node : HeartbeatNode} {s : HeartbeatState} {per now100ms clock : BitVec 32}

/-- A publication that is on. -/
structure HeartbeatOn (node : HeartbeatNode) (perLog : BitVec 8) (s : HeartbeatState) : Prop where
  dst : s.pub.dstAdr ≠ 0
  key : node.netKeyFind s.pub.netkeyidx
  perLog : s.pub.perLog = perLog
  quiet : s.hbStsChange = 0
  log : s.pub.cntLog = 0xff ∧ s.pub.cntVal = 0xffff ∨ s.pub.cntLog ≤ 0x11

/-- What is left of the count. -/
def heartbeatLeft (s : HeartbeatState) : ℕ∞ :=
  if s.pub.cntLog = 0xff then ⊤ else s.pub.cntVal.toNat

variable {perLog : BitVec 8}

theorem HeartbeatOn.cntVal_ne_zero (on : HeartbeatOn node perLog s) (h : heartbeatLeft s ≠ 0) :
    s.pub.cntVal ≠ 0 := by
  obtain ⟨-, hval⟩ | hle := on.log
  · rw [hval]
    decide
  · intro h0
    have hff : s.pub.cntLog ≠ 0xff := by
      rintro hff
      rw [hff] at hle
      exact absurd hle (by decide)
    rw [heartbeatLeft, if_neg hff, h0] at h
    exact h rfl

/-- One heartbeat less. -/
theorem HeartbeatOn.cntStep (on : HeartbeatOn node perLog s) (h0 : s.pub.cntVal ≠ 0)
    (now100ms : BitVec 32) :
    ∃ pub, heartbeatCntStep s.pub = some pub ∧
      HeartbeatOn node perLog { s with pub, hbPub100ms := now100ms } ∧
      heartbeatLeft { s with pub, hbPub100ms := now100ms } + 1 = heartbeatLeft s := by
  obtain ⟨hff, hval⟩ | hle := on.log
  · refine ⟨s.pub, if_pos hff, ⟨on.dst, on.key, on.perLog, on.quiet, on.log⟩, ?_⟩
    unfold heartbeatLeft
    dsimp only
    rw [if_pos hff, top_add]
  · have hff : s.pub.cntLog ≠ 0xff := by
      rintro hff
      rw [hff] at hle
      exact absurd hle (by decide)
    have hpos : 1 ≤ s.pub.cntVal.toNat :=
      Nat.one_le_iff_ne_zero.mpr fun hz => h0 (BitVec.toNat_inj.mp hz)
    have hone : (s.pub.cntVal - 1).toNat = s.pub.cntVal.toNat - 1 :=
      BitVec.toNat_sub_of_le (BitVec.le_def.mpr hpos)
    have hlt := s.pub.cntVal.isLt
    have hval : s.pub.cntVal - 1 ≠ 0xffff := by
      intro heq
      have hnat := congrArg BitVec.toNat heq
      rw [hone] at hnat
      simp at hnat
      omega
    have hlog := calHeartbeatCountLog_le hval
    have hlogff : calHeartbeatCountLog (s.pub.cntVal - 1) ≠ 0xff := by
      rintro hff
      rw [hff] at hlog
      exact absurd hlog (by decide)
    refine ⟨{ s.pub with
        cntVal := s.pub.cntVal - 1, cntLog := calHeartbeatCountLog (s.pub.cntVal - 1) },
      by rw [heartbeatCntStep, if_neg hff, if_pos hle],
      ⟨on.dst, on.key, on.perLog, on.quiet, .inr hlog⟩, ?_⟩
    unfold heartbeatLeft
    dsimp only
    rw [if_neg hff, if_neg hlogff, hone]
    exact_mod_cast Nat.sub_add_cancel hpos

variable (clock) in
theorem meshHeartbeatPubPoll_sends (on : HeartbeatOn node perLog s)
    (hper : heartbeatPbPer perLog = some per) (h : heartbeatPeriodic s per now100ms) :
    ∃ t msg, meshHeartbeatPubPoll node s now100ms clock = (t, some msg) ∧
      HeartbeatOn node perLog t ∧ t.hbPub100ms = now100ms ∧
      heartbeatLeft t + 1 = heartbeatLeft s := by
  obtain ⟨pub, hstep, hon, hleft⟩ := on.cntStep h.1 now100ms
  refine ⟨_, heartbeatMsg node pub, ?_, hon, rfl, hleft⟩
  unfold meshHeartbeatPubPoll
  rw [if_pos ⟨on.dst, on.key⟩, on.perLog, hper]
  dsimp only
  rw [if_pos h, hstep]

variable (clock) in
theorem meshHeartbeatPubPoll_quiet (on : HeartbeatOn node perLog s)
    (hper : heartbeatPbPer perLog = some per) (h : ¬ heartbeatPeriodic s per now100ms) :
    meshHeartbeatPubPoll node s now100ms clock = (s, none) := by
  unfold meshHeartbeatPubPoll
  rw [if_pos ⟨on.dst, on.key⟩, on.perLog, hper]
  dsimp only
  rw [if_neg h, if_neg fun hc => hc.1 on.quiet]

end

/-! ### Runs -/

section

variable {node : HeartbeatNode} {s : HeartbeatState} {perLog : BitVec 8} {time : ℕ → ℕ}
  {clock : ℕ → BitVec 32}

variable (time clock) in
/-- The publication stays on, and what is left and what was sent make up the count. -/
theorem heartbeatRun_on (on : HeartbeatOn node perLog s) (hper : perLog ≤ 0x11) (n : ℕ) :
    HeartbeatOn node perLog (heartbeatRun node s time clock n) ∧
      heartbeatLeft (heartbeatRun node s time clock n) +
        Nat.count (HeartbeatSent node s time clock) n = heartbeatLeft s := by
  obtain ⟨per, hsome, -⟩ := heartbeatPbPer_some hper
  induction n with
  | zero => exact ⟨on, by simp [heartbeatRun]⟩
  | succ n ih =>
    obtain ⟨hon, hleft⟩ := ih
    rw [Nat.count_succ]
    by_cases hp : heartbeatPeriodic (heartbeatRun node s time clock n) per
      (BitVec.ofNat 32 (time n))
    · obtain ⟨t, msg, hpoll, ht, -, hone⟩ :=
        meshHeartbeatPubPoll_sends (clock n) hon hsome hp
      have hsent : HeartbeatSent node s time clock n := by
        rw [HeartbeatSent, hpoll]
        rfl
      rw [heartbeatRun, hpoll, if_pos hsent]
      refine ⟨ht, ?_⟩
      rw [← hleft, ← hone, Nat.cast_add, Nat.cast_one, add_right_comm, add_assoc]
    · have hpoll := meshHeartbeatPubPoll_quiet (clock n) hon hsome hp
      have hnot : ¬ HeartbeatSent node s time clock n := by
        rw [HeartbeatSent, hpoll]
        exact Bool.false_ne_true
      rw [heartbeatRun, hpoll, if_neg hnot]
      exact ⟨hon, hleft⟩

variable (time clock) in
/-- The polls of a run are paced by the clock. -/
theorem heartbeatRun_paced (on : HeartbeatOn node perLog s) (hper : perLog ≤ 0x11) :
    Paced 32 (heartbeatPeriodTicks perLog) time
      (fun n => (heartbeatRun node s time clock n).pub.cntVal ≠ 0)
      (HeartbeatSent node s time clock)
      (fun n => (heartbeatRun node s time clock n).hbPub100ms) := by
  obtain ⟨per, hsome, hticks⟩ := heartbeatPbPer_some hper
  have hiff : ∀ n, HeartbeatSent node s time clock n ↔
      heartbeatPeriodic (heartbeatRun node s time clock n) per (BitVec.ofNat 32 (time n)) := by
    intro n
    have hon := (heartbeatRun_on time clock on hper n).1
    by_cases hp : heartbeatPeriodic (heartbeatRun node s time clock n) per
      (BitVec.ofNat 32 (time n))
    · obtain ⟨t, msg, hpoll, -⟩ := meshHeartbeatPubPoll_sends (clock n) hon hsome hp
      rw [HeartbeatSent, hpoll]
      exact iff_of_true rfl hp
    · rw [HeartbeatSent, meshHeartbeatPubPoll_quiet (clock n) hon hsome hp]
      exact iff_of_false Bool.false_ne_true hp
  refine ⟨fun n => ?_, fun n hs => ?_, fun n hs => ?_⟩
  · have hon := (heartbeatRun_on time clock on hper n).1
    rw [hiff]
    unfold heartbeatPeriodic
    rw [BitVec.lt_def, hticks]
    exact ⟨fun h => ⟨h.1, h.2.2⟩, fun h => ⟨h.1, hon.quiet, h.2⟩⟩
  · have hon := (heartbeatRun_on time clock on hper n).1
    obtain ⟨t, msg, hpoll, -, href, -⟩ :=
      meshHeartbeatPubPoll_sends (clock n) hon hsome ((hiff n).mp hs)
    rw [heartbeatRun, hpoll]
    exact href
  · have hon := (heartbeatRun_on time clock on hper n).1
    rw [heartbeatRun, meshHeartbeatPubPoll_quiet (clock n) hon hsome
      (fun hp => hs ((hiff n).mpr hp))]

end

/-- The count log is not prohibited. -/
def CountLogAllowed (cntLog : BitVec 8) : Prop := cntLog ≤ 0x11 ∨ cntLog = 0xff

/-- The state after a set that turns a publication on, with no feature change to report. -/
theorem heartbeatOn_set {node : HeartbeatNode} {s : HeartbeatState} {p : HeartbeatPubSet}
    (hlog : CountLogAllowed p.countLog) (hdst : p.dst ≠ 0) (hkey : node.netKeyFind p.netkeyindex)
    (hquiet : s.hbStsChange = 0) (now100ms : BitVec 32) :
    HeartbeatOn node p.periodLog (meshCmdSigHeartbeatPubSet s p now100ms) where
  dst := hdst
  key := hkey
  perLog := rfl
  quiet := hquiet
  log := by
    obtain hle | hff := hlog
    · exact .inr hle
    · refine .inl ⟨hff, ?_⟩
      unfold meshCmdSigHeartbeatPubSet
      dsimp only
      rw [hff]
      rfl

theorem heartbeatLeft_set {p : HeartbeatPubSet} (hlog : CountLogAllowed p.countLog)
    (s : HeartbeatState) (now100ms : BitVec 32) :
    heartbeatLeft (meshCmdSigHeartbeatPubSet s p now100ms) = heartbeatCount p.countLog := by
  unfold heartbeatLeft meshCmdSigHeartbeatPubSet
  dsimp only
  obtain hle | hff := hlog
  · have hff : p.countLog ≠ 0xff := by
      rintro hff
      rw [hff] at hle
      exact absurd hle (by decide)
    rw [if_neg hff, getCntLogToVal_count hle]
  · rw [if_pos hff, heartbeatCount, if_pos hff]

/-- After a set with a known key, the polls send as many heartbeats as the count log says
and never more, each more than the period after the last; none for a count log of zero. -/
theorem meshHeartbeatPubPoll_count {node : HeartbeatNode} {s : HeartbeatState} {p : HeartbeatPubSet}
    (hlog : CountLogAllowed p.countLog) (hper : p.periodLog ≤ 0x11) (hdst : p.dst ≠ 0)
    (hkey : node.netKeyFind p.netkeyindex) (hquiet : s.hbStsChange = 0) (now100ms : BitVec 32)
    (time : ℕ → ℕ) (hmono : Monotone time) (clock : ℕ → BitVec 32) :
    let sent := HeartbeatSent node (meshCmdSigHeartbeatPubSet s p now100ms) time clock
    (∀ n, (Nat.count sent n : ℕ∞) ≤ heartbeatCount p.countLog) ∧
      (GoesOn 32 (heartbeatPeriodTicks p.periodLog) time →
        ⨆ n, (Nat.count sent n : ℕ∞) = heartbeatCount p.countLog) ∧
      (∀ i j, i < j → sent i → sent j → time i + heartbeatPeriodTicks p.periodLog < time j) ∧
      (p.countLog = 0 → ∀ n, ¬ sent n) := by
  intro sent
  have on := heartbeatOn_set hlog hdst hkey hquiet now100ms
  have hpaced := heartbeatRun_paced time clock on hper
  have hrun := fun n => heartbeatRun_on time clock on hper n
  rw [heartbeatLeft_set hlog] at hrun
  have hle : ∀ n, (Nat.count sent n : ℕ∞) ≤ heartbeatCount p.countLog := fun n =>
    (hrun n).2 ▸ le_add_self
  refine ⟨hle, fun hon => hpaced.iSup_count hon hle fun n hlt => ?_,
    fun i j => hpaced.apart hmono, fun hzero n hs => ?_⟩
  · refine (hrun n).1.cntVal_ne_zero fun h0 => hlt.ne ?_
    rw [← (hrun n).2, h0, zero_add]
  · have hone := hle (n + 1)
    rw [hzero, Nat.count_succ, if_pos hs] at hone
    simp [heartbeatCount] at hone

/-- A node with every key, and no publication. -/
def plainNode : HeartbeatNode := ⟨fun _ => true, false, false, false, false⟩

def noPublication : HeartbeatState := ⟨⟨0, 0, 0, 0, 0, 0, 0⟩, 0, 0⟩

theorem goesOn_id : GoesOn 32 (heartbeatPeriodTicks 2) id where
  mono := monotone_id
  unbounded t := ⟨t + 1, t.lt_succ_self⟩
  dense n := by
    have hticks : heartbeatPeriodTicks 2 = 20 := by decide
    rw [hticks]
    simp only [id]
    omega

/-- A count log of three: four heartbeats. -/
theorem meshHeartbeatPubPoll_count_four :
    ⨆ n, (Nat.count (HeartbeatSent plainNode
      (meshCmdSigHeartbeatPubSet noPublication ⟨1, 3, 2, 5, 0, 0⟩ 0) id fun _ => 0) n : ℕ∞) = 4 :=
  (@meshHeartbeatPubPoll_count plainNode noPublication ⟨1, 3, 2, 5, 0, 0⟩ (.inl (by decide))
    (by decide) (by decide) rfl rfl 0 id monotone_id fun _ => 0).2.1 goesOn_id

/-- With a period log of zero a heartbeat is sent. -/
theorem meshHeartbeatPubPoll_period_zero :
    ¬ ∀ (node : HeartbeatNode) (s : HeartbeatState) (p : HeartbeatPubSet) (now100ms : BitVec 32)
      (time : ℕ → ℕ) (clock : ℕ → BitVec 32), CountLogAllowed p.countLog → p.dst ≠ 0 →
      node.netKeyFind p.netkeyindex → s.hbStsChange = 0 → Monotone time → p.periodLog = 0 →
      ∀ n, ¬ HeartbeatSent node (meshCmdSigHeartbeatPubSet s p now100ms) time clock n := by
  intro h
  have hnot := h plainNode noPublication ⟨1, 1, 0, 5, 0, 0⟩ 0 id (fun _ => 0) (.inl (by decide))
    (by decide) rfl rfl monotone_id rfl 0
  revert hnot
  decide +kernel

end PirMesh
