import PirMesh.FastProv.Provisioner
import PirMesh.Library.Counters
import PirMesh.Library.Run

/-! # FastProv — Who gets which entry and which address

A run of the provisioner with its history: the nodes that answered in this round, the
entries that were read, and the addresses that were given.  A status of a source that is
in the buffer already writes its MAC behind the last entry; when the buffer is full,
that is the first one (`fastProv_full_repeated`).  In the runs where this does not
happen, and that do not give more elements an address than there are addresses
(`Distinct`), every node keeps its entry and no two ranges overlap
(`fastProv_allocates`). -/

namespace PirMesh

open Run Cuts

/-! ### History -/

/-- The provisioner, and what happened. -/
structure FastProvRun where
  prov : FastProv
  /-- The first status of each source in this round, while there is room. -/
  discovered : List FastProvMac
  /-- The entries read in this round, as they were read. -/
  read : List (ℕ × FastProvMac)
  /-- The addresses sent to nodes in the run, the newest first. -/
  given : List (BitVec 16 × FastProvMac)

inductive FastProvEvent
  | proc (busySegment started : Bool) (clock : BitVec 32)
  | rsp (rsp : FastProvRsp) (clock : BitVec 32)
  | finish (clock : BitVec 32)
  /-- The gateway begins a reliable command of its own. -/
  | otherReliable

/-- The statuses are collected. -/
def FastProv.Collects (f : FastProv) : Prop :=
  f.par.curSts = .getAddr ∨ f.par.curSts = .getAddrRetry

instance (f : FastProv) : Decidable f.Collects := inferInstanceAs (Decidable (_ ∨ _))

namespace FastProvRun

/-- A command as it goes out. -/
def command (r : FastProvRun) (f : FastProv) (started : Bool) : FastProvCmd → FastProvRun
  | .addrGet _ | .addrGetRetry _ _ => { r with prov := f, discovered := [], read := [] }
  | .addrSet _ _ eleAddr =>
    let p := f.macBuf (f.rIdx - 1)
    { r with
      prov := f
      read := (f.rIdx - 1, p) :: r.read
      given := if started then (eleAddr, p) :: r.given else r.given }
  | _ => { r with prov := f }

/-- A node that was not seen in this round. -/
def Discovers (r : FastProvRun) (rsp : FastProvRsp) : Prop :=
  r.prov.Collects ∧ rsp.op = .addrGetSts ∧ r.discovered.length < cacheMacMaxNum ∧
    rsp.src ∉ r.discovered.map FastProvMac.defaultAddr

instance (r : FastProvRun) (rsp : FastProvRsp) : Decidable (r.Discovers rsp) :=
  inferInstanceAs (Decidable (_ ∧ _))

def step (r : FastProvRun) : FastProvEvent → FastProvRun
  | .proc busySegment started clock =>
    match meshFastProvProc r.prov busySegment clock with
    | (f, none) => { r with prov := f }
    | (f, some cmd) => r.command (sendOpParaDebugVendor f cmd started) started cmd
  | .rsp rsp clock =>
    { r with
      prov := meshFastProvRspHandle r.prov rsp clock
      discovered :=
        if r.Discovers rsp then r.discovered ++ [⟨rsp.mac, rsp.pid, rsp.src⟩] else r.discovered }
  | .finish clock => { r with prov := meshTxReliableFinish r.prov clock }
  | .otherReliable =>
    if r.prov.reliable = none then { r with prov.reliable := some .other } else r

/-- The provisioner is started, with anything in its memory. -/
def Starts (r : FastProvRun) : Prop :=
  (∃ f pid provAddr clock, r.prov = meshFastProvStart f pid provAddr clock) ∧
    r.discovered = [] ∧ r.read = [] ∧ r.given = []

/-- The addresses of the elements of a node. -/
def range (g : BitVec 16 × FastProvMac) : BitVec 16 × ℕ := (g.1, meshFastProvGetEleCnt g.2.pid)

/-- What the allocation is for. -/
structure Allocates (r : FastProvRun) : Prop where
  own : ∀ n ∈ r.discovered,
    (∃! i, i < r.prov.wIdx ∧ (r.prov.macBuf i).defaultAddr = n.defaultAddr) ∧
      ∃ i < r.prov.wIdx, r.prov.macBuf i = n
  kept : ∀ e ∈ r.read, r.prov.macBuf e.1 = e.2
  apart : r.given.Pairwise fun p q =>
    Disjoint (span p.1 (range p).2) (span q.1 (range q).2)

/-- No source answers again when the buffer is full, and there are addresses left. -/
def Distinct (r : FastProvRun) : FastProvEvent → Prop
  | .rsp rsp _ =>
    r.prov.Collects → rsp.op = .addrGetSts → r.prov.wIdx = cacheMacMaxNum →
      ∀ i < cacheMacMaxNum, (r.prov.macBuf i).defaultAddr ≠ rsp.src
  | .proc _ _ _ =>
    r.prov.par.curSts = .setAddr → r.prov.reliable = none → r.prov.rIdx < r.prov.wIdx →
      total (r.given.map range) + meshFastProvGetEleCnt (r.prov.macBuf r.prov.rIdx).pid ≤ 2 ^ 16
  | .finish _ | .otherReliable => True

instance (r : FastProvRun) (e : FastProvEvent) : Decidable (r.Distinct e) :=
  match e with
  | .rsp _ _ => inferInstanceAs (Decidable (_ → _))
  | .proc _ _ _ => inferInstanceAs (Decidable (_ → _))
  | .finish _ | .otherReliable => inferInstanceAs (Decidable True)

end FastProvRun

def fastProvSys : Sys FastProvRun FastProvEvent := .det FastProvRun.Starts FastProvRun.step

/-! ### What a pass of the state machine does -/

namespace FastProv

variable {f : FastProv}

/-- Before the statuses are collected. -/
def Waits (f : FastProv) : Prop :=
  f.par.curSts = .idle ∨ f.par.curSts = .start ∨ f.par.curSts = .resetNetwork

/-- Only `par` changes: the provisioner gives up or goes on, but to another status of
the round only from the end of the reset. -/
structure Goes (f : FastProv) (p : FastProvPar) : Prop where
  addr : p.curSts = .idle ∨ p.provAddr = f.par.provAddr
  idle : f.par.curSts = .idle → p.curSts = .idle
  waits : f.Waits → FastProv.Waits { f with par := p }
  round : p.curSts = .getAddr ∨ p.curSts = .getAddrRetry ∨ p.curSts = .setAddr →
    p.curSts = f.par.curSts

/-- The cases of `meshFastProvProc`. -/
inductive ProcCase (f : FastProv) : FastProv → Option FastProvCmd → Prop
  | busy : ProcCase f f none
  | go {p : FastProvPar} {cmd : Option FastProvCmd} : f.reliable = none → f.Goes p →
      (∀ c ∈ cmd, c = .provConfirm ∨ c.reliableOp = none) →
      ProcCase f { f with par := p } cmd
  | collect {p : FastProvPar} {cmd : FastProvCmd} : f.reliable = none →
      f.par.curSts ≠ .idle → p.provAddr = f.par.provAddr →
      p.curSts = .getAddr ∨ p.curSts = .getAddrRetry →
      cmd = .addrGet p.pid ∨ cmd = .addrGetRetry p.pid p.provAddr →
      ProcCase f (meshFastProvMacBufInit { f with par := p }) (some cmd)
  | set {p : FastProvPar} (mac : BitVec 48) : f.reliable = none → f.par.curSts = .setAddr →
      p.curSts = .setAddr → p.provAddr = f.par.provAddr → f.rIdx < f.wIdx →
      ProcCase f { f with par := p, rIdx := f.rIdx + 1 }
        (some (.addrSet (f.macBuf f.rIdx).defaultAddr mac f.par.provAddr))

/-- What comes before the command: the timeout, and the two delays. -/
theorem exists_par_before (f : FastProv) (clock : BitVec 32) :
    ∃ p, ((meshFastProvisionTimeout f clock).resetOver clock).completeOver clock =
        { f with par := p } ∧
      (p.curSts = .idle ∨ (p.curSts = f.par.curSts ∧ p.provAddr = f.par.provAddr) ∨
        (f.par.curSts = .resetNetwork ∧ p.curSts = .getAddr ∧ p.pending = false ∧
          p.provAddr = f.par.provAddr)) := by
  obtain ⟨p, hp, hcase⟩ : ∃ p, meshFastProvisionTimeout f clock = { f with par := p } ∧
      (p.curSts = .idle ∨ p = f.par) := by
    unfold meshFastProvisionTimeout
    split_ifs
    · exact ⟨meshFastProvValInit, rfl, .inl rfl⟩
    · exact ⟨f.par, rfl, .inr rfl⟩
  rw [hp]
  clear hp
  obtain ⟨q, hq, hqcase⟩ : ∃ q, FastProv.resetOver { f with par := p } clock = { f with par := q } ∧
      (q = p ∨ (p.curSts = .resetNetwork ∧ q.curSts = .getAddr ∧ q.pending = false ∧
        q.provAddr = p.provAddr)) := by
    unfold resetOver
    split_ifs with hr
    · refine ⟨_, rfl, .inr ⟨hr.1, ?_⟩⟩
      simp [stsSet, meshFastProvStsSet, show p.curSts = .resetNetwork from hr.1]
    · exact ⟨p, rfl, .inl rfl⟩
  rw [hq]
  clear hq
  obtain ⟨u, hu, hucase⟩ : ∃ u, FastProv.completeOver { f with par := q } clock =
      { f with par := u } ∧ (u = q ∨ u.curSts = .idle) := by
    unfold completeOver
    split_ifs
    · exact ⟨_, rfl, .inr rfl⟩
    · exact ⟨q, rfl, .inl rfl⟩
  refine ⟨u, hu, ?_⟩
  obtain rfl | hidle := hucase
  swap
  · exact .inl hidle
  obtain rfl | ⟨hreset, hget, hpend, haddr⟩ := hqcase
  · obtain hidle | rfl := hcase
    · exact .inl hidle
    · exact .inr (.inl ⟨rfl, rfl⟩)
  · obtain hidle | rfl := hcase
    · exact absurd (hidle.symm.trans hreset) (by decide)
    · exact .inr (.inr ⟨hreset, hget, hpend, haddr⟩)

/-- The status stays, or the provisioner gives up. -/
theorem Goes.stays {p : FastProvPar} (h : p.curSts = .idle ∨
    (p.curSts = f.par.curSts ∧ p.provAddr = f.par.provAddr)) : f.Goes p := by
  obtain hidle | ⟨hsts, haddr⟩ := h
  · refine ⟨.inl hidle, fun _ => hidle, fun _ => .inl hidle, ?_⟩
    rw [hidle]
    exact fun h => absurd h (by decide)
  · refine ⟨.inr haddr, hsts.trans, fun hw => ?_, fun _ => hsts⟩
    unfold Waits at hw ⊢
    rwa [hsts]

/-- A status outside the round follows. -/
theorem Goes.follows {p : FastProvPar} (haddr : p.provAddr = f.par.provAddr)
    (hi : f.par.curSts ≠ .idle) (hw : f.Waits → p.curSts = .resetNetwork)
    (hr : ¬ (p.curSts = .getAddr ∨ p.curSts = .getAddrRetry ∨ p.curSts = .setAddr)) : f.Goes p :=
  ⟨.inr haddr, fun h => absurd h hi, fun h => .inr (.inr (hw h)), fun h => absurd h hr⟩

theorem stsSet_eq (f : FastProv) (sts : FastProvSts) (clock : BitVec 32) :
    ∃ p, f.stsSet sts clock = { f with par := p } ∧ p.curSts = sts ∧
      p.provAddr = f.par.provAddr := by
  refine ⟨meshFastProvStsSet f.par sts clock, rfl, ?_⟩
  unfold meshFastProvStsSet
  dsimp only
  by_cases h : sts ≠ f.par.curSts
  · rw [if_pos h]
    exact ⟨rfl, rfl⟩
  · rw [if_neg h]
    exact ⟨(not_not.mp h).symm, rfl⟩

/-- A new status outside the round. -/
theorem stsSet_follows {p : FastProvPar} (sts : FastProvSts)
    (haddr : p.provAddr = f.par.provAddr) (hi : f.par.curSts ≠ .idle)
    (hw : f.Waits → sts = .resetNetwork)
    (hr : ¬ (sts = .getAddr ∨ sts = .getAddrRetry ∨ sts = .setAddr)) (clock : BitVec 32) :
    ∃ q, FastProv.stsSet { f with par := p } sts clock = { f with par := q } ∧ f.Goes q := by
  obtain ⟨q, hq, hqs, hqa⟩ := stsSet_eq { f with par := p } sts clock
  refine ⟨q, hq, Goes.follows (hqa.trans haddr) hi (fun h => hqs.trans (hw h)) ?_⟩
  rw [hqs]
  exact hr

/-- Behind the round nothing waits. -/
theorem not_waits (h : f.par.curSts = .netInfo ∨ f.par.curSts = .confirmOk) : ¬ f.Waits := by
  unfold Waits
  rcases h with h | h
  · rw [h]
    decide
  · rw [h]
    decide

theorem procCase (f : FastProv) (busySegment : Bool) (clock : BitVec 32) :
    ProcCase f (meshFastProvProc f busySegment clock).1
      (meshFastProvProc f busySegment clock).2 := by
  unfold meshFastProvProc
  by_cases hbusy : busySegment ∨ f.reliable.isSome
  · rw [if_pos hbusy]
    exact .busy
  rw [if_neg hbusy]
  have hrel : f.reliable = none := Option.not_isSome_iff_eq_none.mp fun h => hbusy (.inr h)
  obtain ⟨p, hp, hcase⟩ := exists_par_before f clock
  dsimp only
  rw [hp]
  have hnone : ∀ c ∈ (none : Option FastProvCmd), c = .provConfirm ∨ c.reliableOp = none :=
    fun c hc => nomatch hc
  by_cases hpend : p.pending
  · rw [if_pos hpend]
    refine .go hrel (Goes.stays (hcase.imp_right fun h => ?_)) hnone
    exact h.resolve_right fun hr => by simp [hpend] at hr
  rw [if_neg hpend]
  have hsame : p.curSts ≠ .idle → p.curSts ≠ .getAddr →
      p.curSts = f.par.curSts ∧ p.provAddr = f.par.provAddr := fun hi hg =>
    (hcase.resolve_left hi).resolve_right fun hr => hg hr.2.1
  unfold switch
  cases hsts : p.curSts
  case getAddr =>
    obtain hidle | ⟨hw, haddr⟩ | ⟨hw, -, -, haddr⟩ := hcase
    · exact absurd (hsts.symm.trans hidle) (by decide)
    · refine .collect hrel ?_ haddr (.inl hsts) (.inl rfl)
      rw [← hw, hsts]
      decide
    · refine .collect hrel ?_ haddr (.inl hsts) (.inl rfl)
      rw [hw]
      decide
  case idle => exact .go hrel (Goes.stays (.inl hsts)) hnone
  all_goals
    have hp := hsame (by rw [hsts]; decide) (by rw [hsts]; decide)
    have hw : f.par.curSts = p.curSts := hp.1.symm
    rw [hsts] at hw
    have hne : f.par.curSts ≠ .idle := by
      rw [hw]
      decide
    have hunrel : ∀ cmd : FastProvCmd, cmd.reliableOp = none →
        ∀ c ∈ some cmd, c = .provConfirm ∨ c.reliableOp = none :=
      fun cmd hcmd c hc => .inr (Option.some.inj hc ▸ hcmd)
    dsimp only
  case start =>
    obtain ⟨q, hq, hgoes⟩ := stsSet_follows (p := { p with delay := 1000 + 500 }) .resetNetwork
      hp.2 hne (fun _ => rfl) (by decide) clock
    rw [hq]
    -- `pending` is set after the status and is not read by `Goes`
    exact .go hrel ⟨hgoes.addr, hgoes.idle, hgoes.waits, hgoes.round⟩ (hunrel _ rfl)
  case getAddrRetry => exact .collect hrel hne hp.2 (.inr hsts) (.inr rfl)
  case setAddr =>
    unfold meshFastProvGetMacFromBuf
    dsimp only
    by_cases hlt : f.rIdx < f.wIdx
    · rw [if_pos hlt]
      dsimp only
      rw [hp.2, Nat.add_sub_cancel]
      exact .set _ hrel hw hsts hp.2 hlt
    · rw [if_neg hlt]
      exact .go hrel (Goes.stays (.inr hp)) hnone
  case netInfo =>
    obtain ⟨q, hq, hgoes⟩ := stsSet_follows .confirm hp.2 hne
      (fun h => absurd h (not_waits (.inl hw))) (by decide) clock
    rw [hq]
    exact .go hrel hgoes (hunrel _ rfl)
  case confirm =>
    exact .go hrel (Goes.stays (.inr hp)) fun c hc => .inl (Option.some.inj hc).symm
  case confirmOk =>
    obtain ⟨q, hq, hgoes⟩ := stsSet_follows .complete hp.2 hne
      (fun h => absurd h (not_waits (.inr hw))) (by decide) clock
    rw [hq]
    exact .go hrel ⟨hgoes.addr, hgoes.idle, hgoes.waits, hgoes.round⟩ (hunrel _ rfl)
  all_goals exact .go hrel (Goes.stays (.inr hp)) hnone

end FastProv

/-! ### The buffer -/

namespace FastProvRun

variable {r : FastProvRun}

/-- Nothing was collected so far. -/
def Fresh (r : FastProvRun) : Prop := r.prov.Waits ∧ r.discovered = [] ∧ r.read = []

/-- The entries up to the write index are the nodes of the round. -/
structure Tabled (r : FastProvRun) : Prop where
  len : r.prov.wIdx = r.discovered.length
  le : r.discovered.length ≤ cacheMacMaxNum
  cell : ∀ (i : ℕ) (h : i < r.discovered.length), r.prov.macBuf i = r.discovered[i]
  nodup : (r.discovered.map FastProvMac.defaultAddr).Nodup
  rLe : r.prov.rIdx ≤ r.prov.wIdx
  read : ∀ e ∈ r.read, e.1 < r.prov.rIdx ∧ r.prov.macBuf e.1 = e.2

theorem Tabled.own (h : r.Tabled) {n : FastProvMac} (hn : n ∈ r.discovered) :
    (∃! i, i < r.prov.wIdx ∧ (r.prov.macBuf i).defaultAddr = n.defaultAddr) ∧
      ∃ i < r.prov.wIdx, r.prov.macBuf i = n := by
  obtain ⟨i, hi, rfl⟩ := List.getElem_of_mem hn
  have hlt : i < r.prov.wIdx := h.len ▸ hi
  refine ⟨⟨i, ⟨hlt, congrArg _ (h.cell i hi)⟩, fun j hj => ?_⟩, i, hlt, h.cell i hi⟩
  obtain ⟨hjlt, hjaddr⟩ := hj
  rw [h.len] at hjlt
  rw [h.cell j hjlt] at hjaddr
  have hil : i < (r.discovered.map FastProvMac.defaultAddr).length := by simpa using hi
  have hjl : j < (r.discovered.map FastProvMac.defaultAddr).length := by simpa using hjlt
  have haddr : (r.discovered.map FastProvMac.defaultAddr)[j] =
      (r.discovered.map FastProvMac.defaultAddr)[i] := by
    simpa using hjaddr
  exact h.nodup.getElem_inj_iff.mp haddr

/-- What the loop of `meshFastProvAddMacToBuf` looks for. -/
theorem Tabled.exists_iff (h : r.Tabled) (src : BitVec 16) :
    (∃ i < r.prov.wIdx, (r.prov.macBuf i).defaultAddr = src) ↔
      src ∈ r.discovered.map FastProvMac.defaultAddr := by
  rw [List.mem_map]
  constructor
  · rintro ⟨i, hi, rfl⟩
    rw [h.len] at hi
    exact ⟨_, List.getElem_mem hi, congrArg _ (h.cell i hi).symm⟩
  · rintro ⟨n, hn, rfl⟩
    obtain ⟨-, i, hi, rfl⟩ := h.own hn
    exact ⟨i, hi, rfl⟩

/-- Cells behind the last entry may change. -/
theorem Tabled.congr {f : FastProv} (h : r.Tabled) (hw : f.wIdx = r.prov.wIdx)
    (hr : f.rIdx = r.prov.rIdx) (hbuf : ∀ i < r.prov.wIdx, f.macBuf i = r.prov.macBuf i) :
    Tabled { r with prov := f } where
  len := hw.trans h.len
  le := h.le
  cell i hi := (hbuf i (h.len ▸ hi)).trans (h.cell i hi)
  nodup := h.nodup
  rLe := by
    change f.rIdx ≤ f.wIdx
    rw [hr, hw]
    exact h.rLe
  read e he := by
    obtain ⟨hlt, heq⟩ := h.read e he
    exact ⟨hr ▸ hlt, (hbuf _ (hlt.trans_le h.rLe)).trans heq⟩

theorem rspHandle_collects {f : FastProv} (hc : f.Collects) (rsp : FastProvRsp)
    (clock : BitVec 32) : meshFastProvRspHandle f rsp clock =
      if rsp.op = .addrGetSts then meshFastProvAddMacToBuf f rsp else f := by
  unfold meshFastProvRspHandle
  obtain hg | hg := hc
  all_goals
    rw [hg]

/-- Elsewhere a status changes at most the status of the provisioner. -/
theorem rspHandle_not_collects {f : FastProv} (hc : ¬ f.Collects) (rsp : FastProvRsp)
    (clock : BitVec 32) : ∃ p, meshFastProvRspHandle f rsp clock = { f with par := p } ∧
      p.provAddr = f.par.provAddr ∧
      (p.curSts = f.par.curSts ∨ f.par.curSts = .confirm ∧ p.curSts = .netInfo) := by
  unfold meshFastProvRspHandle
  cases hs : f.par.curSts
  case getAddr => exact absurd (.inl hs) hc
  case getAddrRetry => exact absurd (.inr hs) hc
  case confirm =>
    dsimp only
    split_ifs
    · obtain ⟨p, hp, hps, hpa⟩ := f.stsSet_eq .netInfo clock
      exact ⟨p, hp, hpa, .inr ⟨rfl, hps⟩⟩
    · exact ⟨f.par, rfl, rfl, .inl hs⟩
  all_goals exact ⟨f.par, rfl, rfl, .inl hs⟩

/-- A status that is collected: the table grows by its source, if that is a new one. -/
theorem tabled_rsp (h : r.Tabled) {rsp : FastProvRsp} {clock : BitVec 32}
    (hd : r.Distinct (.rsp rsp clock)) : (r.step (.rsp rsp clock)).Tabled := by
  unfold step
  dsimp only
  by_cases hc : r.prov.Collects
  swap
  · obtain ⟨p, hp, -, -⟩ := rspHandle_not_collects hc rsp clock
    rw [if_neg fun hn : r.Discovers rsp => hc hn.1, hp]
    exact h.congr rfl rfl fun _ _ => rfl
  rw [rspHandle_collects hc]
  by_cases hop : rsp.op = .addrGetSts
  swap
  · rw [if_neg fun hn : r.Discovers rsp => hop hn.2.1, if_neg hop]
    exact h
  rw [if_pos hop]
  unfold meshFastProvAddMacToBuf
  dsimp only
  by_cases hsrc : rsp.src ∈ r.discovered.map FastProvMac.defaultAddr
  · -- a repeated source: the cell at the write index, which is behind the last entry
    have hroom : r.prov.wIdx < cacheMacMaxNum := by
      refine (h.len.trans_le h.le).lt_of_ne fun hfull => ?_
      obtain ⟨i, hi, haddr⟩ := (h.exists_iff _).mpr hsrc
      exact hd hc hop hfull i (hfull ▸ hi) haddr
    rw [if_neg fun hn : r.Discovers rsp => hn.2.2.2 hsrc, if_pos ((h.exists_iff _).mpr hsrc),
      Nat.mod_eq_of_lt hroom]
    exact h.congr rfl rfl fun i hi => Function.update_of_ne hi.ne _ _
  rw [if_neg (mt (h.exists_iff _).mp hsrc)]
  by_cases hroom : r.discovered.length < cacheMacMaxNum
  swap
  · rw [if_neg fun hn : r.Discovers rsp => hroom hn.2.2.1, if_neg (h.len ▸ hroom)]
    exact h
  have hnew : r.Discovers rsp := ⟨hc, hop, hroom, hsrc⟩
  have hlt : r.prov.wIdx < cacheMacMaxNum := h.len ▸ hroom
  rw [if_pos hnew, if_pos hlt, Nat.mod_eq_of_lt hlt]
  exact
    { len := by
        rw [List.length_append, ← h.len]
        rfl
      le := by
        rw [List.length_append]
        exact hroom
      cell := fun i hi => by
        dsimp only
        obtain hlt | rfl : i < r.discovered.length ∨ i = r.discovered.length := by
          rw [List.length_append] at hi
          exact Nat.lt_or_eq_of_le (Nat.le_of_lt_succ hi)
        · rw [Function.update_of_ne (h.len ▸ hlt.ne), List.getElem_append_left hlt]
          exact h.cell i hlt
        · refine Eq.trans ?_ (List.getElem_concat_length rfl _).symm
          rw [← h.len, Function.update_self]
      nodup := by
        rw [List.map_append, List.nodup_append_comm]
        exact List.nodup_cons.mpr ⟨hsrc, h.nodup⟩
      rLe := h.rLe.trans (Nat.le_succ _)
      read := fun e he => by
        obtain ⟨hlt, heq⟩ := h.read e he
        exact ⟨hlt, (Function.update_of_ne (hlt.trans_le h.rLe).ne _ _).trans heq⟩ }

/-! ### The invariant -/

/-- Where the address counter will be after the command that is outstanding. -/
def Stands (r : FastProvRun) (next : BitVec 16) : Prop :=
  (next = r.prov.par.provAddr ∧
    (r.prov.reliable = some .addrSet → r.prov.par.curSts = .start)) ∨
  (r.prov.reliable = some .addrSet ∧ r.prov.par.curSts = .setAddr ∧
    next = r.prov.par.provAddr +
      BitVec.ofNat 16 (meshFastProvGetEleCnt (r.prov.macBuf (r.prov.rIdx - 1)).pid))

structure Inv (r : FastProvRun) : Prop where
  table : r.Fresh ∨ r.Tabled
  room : total (r.given.map range) ≤ 2 ^ 16
  cut : ∃ first next, Cut first (r.given.map range) next ∧
    (r.prov.par.curSts ≠ .idle → r.Stands next)

theorem Inv.allocates (inv : r.Inv) : r.Allocates := by
  obtain ⟨first, next, hcut, -⟩ := inv.cut
  have hapart := List.pairwise_map.mp (hcut.disjoint inv.room)
  obtain ⟨-, hd, hr⟩ | h := inv.table
  · refine ⟨fun n hn => ?_, fun e he => ?_, hapart⟩
    · rw [hd] at hn
      exact absurd hn List.not_mem_nil
    · rw [hr] at he
      exact absurd he List.not_mem_nil
  · exact ⟨fun n hn => h.own hn, fun e he => (h.read e he).2, hapart⟩

theorem inv_starts (h : r.Starts) : r.Inv := by
  obtain ⟨⟨f, pid, provAddr, clock, hprov⟩, hd, hr, hg⟩ := h
  refine ⟨.inl ⟨.inr (.inl (hprov ▸ rfl)), hd, hr⟩, ?_, provAddr, provAddr, ?_, fun _ => ?_⟩
  · rw [hg]
    exact Nat.zero_le _
  · rw [hg]
    exact .nil
  · exact .inl ⟨hprov ▸ rfl, fun _ => hprov ▸ rfl⟩

theorem addMacToBuf_frame (f : FastProv) (rsp : FastProvRsp) :
    (meshFastProvAddMacToBuf f rsp).par = f.par ∧
      (meshFastProvAddMacToBuf f rsp).reliable = f.reliable := by
  unfold meshFastProvAddMacToBuf
  dsimp only
  split_ifs
  all_goals exact ⟨rfl, rfl⟩

theorem inv_rsp (inv : r.Inv) {rsp : FastProvRsp} {clock : BitVec 32}
    (hd : r.Distinct (.rsp rsp clock)) : (r.step (.rsp rsp clock)).Inv := by
  obtain ⟨first, next, hcut, hstand⟩ := inv.cut
  by_cases hc : r.prov.Collects
  · have h : r.Tabled := by
      refine inv.table.resolve_left fun hf => ?_
      obtain hw | hw | hw := hf.1
      all_goals
        unfold FastProv.Collects at hc
        rw [hw] at hc
        exact absurd hc (by decide)
    obtain ⟨hpar, hrel⟩ : (meshFastProvRspHandle r.prov rsp clock).par = r.prov.par ∧
        (meshFastProvRspHandle r.prov rsp clock).reliable = r.prov.reliable := by
      rw [rspHandle_collects hc]
      split_ifs
      · exact addMacToBuf_frame r.prov rsp
      · exact ⟨rfl, rfl⟩
    refine ⟨.inr (tabled_rsp h hd), inv.room, first, next, hcut, fun hne => ?_⟩
    obtain ⟨hnext, hst⟩ | ⟨-, hset, -⟩ := hstand (hpar ▸ hne)
    · exact .inl ⟨hnext.trans (congrArg _ hpar.symm),
        fun hr => (congrArg _ hpar).trans (hst (hrel.symm.trans hr))⟩
    · unfold FastProv.Collects at hc
      rw [hset] at hc
      exact absurd hc (by decide)
  · obtain ⟨p, hp, haddr, hsts⟩ := rspHandle_not_collects hc rsp clock
    have hstep : r.step (.rsp rsp clock) = { r with prov.par := p } := by
      unfold step
      dsimp only
      rw [hp, if_neg fun hn : r.Discovers rsp => hc hn.1]
    rw [hstep]
    refine ⟨?_, inv.room, first, next, hcut, fun hne => ?_⟩
    · obtain ⟨hw, hdisc, hread⟩ | h := inv.table
      · refine .inl ⟨?_, hdisc, hread⟩
        obtain hsts | ⟨hconf, -⟩ := hsts
        · unfold FastProv.Waits at hw ⊢
          rwa [hsts]
        · unfold FastProv.Waits at hw
          rw [hconf] at hw
          exact absurd hw (by decide)
      · exact .inr (h.congr rfl rfl fun _ _ => rfl)
    · obtain hsts | ⟨hconf, -⟩ := hsts
      · obtain ⟨hnext, hst⟩ | ⟨hr, hset, hnext⟩ := hstand (hsts ▸ hne)
        · exact .inl ⟨hnext.trans haddr.symm, fun hr => hsts.trans (hst hr)⟩
        · exact .inr ⟨hr, hsts.trans hset, haddr ▸ hnext⟩
      · obtain ⟨hnext, hst⟩ | ⟨hr, hset, hnext⟩ := hstand (by rw [hconf]; decide)
        · exact .inl ⟨hnext.trans haddr.symm,
            fun hr => absurd (hconf.symm.trans (hst hr)) (by decide)⟩
        · exact absurd (hconf.symm.trans hset) (by decide)

/-- The end of the command that set an address. -/
theorem finish_addrSet {f : FastProv} (hs : f.par.curSts = .setAddr) (clock : BitVec 32) :
    ∃ p, meshFastProvReliableFinishHandle f .addrSet clock = { f with par := p } ∧
      p.provAddr = f.par.provAddr +
        BitVec.ofNat 16 (meshFastProvGetEleCnt (f.macBuf (f.rIdx - 1)).pid) := by
  unfold meshFastProvReliableFinishHandle
  rw [hs]
  dsimp only
  rw [if_pos rfl]
  split_ifs
  · exact ⟨_, rfl, meshFastProvStsSet_provAddr _ _ _⟩
  · exact ⟨_, rfl, meshFastProvStsSet_provAddr _ _ _⟩

/-- Any other end leaves the address counter alone. -/
theorem finish_other {f : FastProv} {op : ReliableOp}
    (h : ¬ (f.par.curSts = .setAddr ∧ op = .addrSet)) (clock : BitVec 32) :
    ∃ p, meshFastProvReliableFinishHandle f op clock = { f with par := p } ∧
      (f.Waits → p = f.par) ∧ p.provAddr = f.par.provAddr := by
  have hwaits : ∀ {s : FastProvSts} {P : Prop}, f.par.curSts = s →
      ¬ (s = .idle ∨ s = .start ∨ s = .resetNetwork) → f.Waits → P := by
    rintro s P rfl hn hw
    exact absurd hw hn
  unfold meshFastProvReliableFinishHandle
  cases hs : f.par.curSts
  case setAddr =>
    dsimp only
    rw [if_neg fun hop => h ⟨hs, hop⟩]
    exact ⟨f.par, rfl, fun _ => rfl, rfl⟩
  case getAddr | getAddrRetry | confirm =>
    dsimp only
    split_ifs
    all_goals
      first
      | exact ⟨_, rfl, hwaits hs (by decide), meshFastProvStsSet_provAddr _ _ _⟩
      | exact ⟨f.par, rfl, fun _ => rfl, rfl⟩
  all_goals exact ⟨f.par, rfl, fun _ => rfl, rfl⟩

theorem inv_finish (inv : r.Inv) (clock : BitVec 32) : (r.step (.finish clock)).Inv := by
  unfold step
  dsimp only
  unfold meshTxReliableFinish
  cases hop : r.prov.reliable with
  | none => exact inv
  | some op =>
    dsimp only
    obtain ⟨first, next, hcut, hstand⟩ := inv.cut
    by_cases hset : r.prov.par.curSts = .setAddr ∧ op = .addrSet
    · obtain ⟨hs, rfl⟩ := hset
      obtain ⟨p, hp, haddr⟩ := finish_addrSet hs clock
      rw [hp]
      refine ⟨.inr ?_, inv.room, first, next, hcut, fun _ => .inl ⟨?_, fun h => nomatch h⟩⟩
      · refine (inv.table.resolve_left fun hf => ?_).congr rfl rfl fun _ _ => rfl
        obtain hw | hw | hw := hf.1
        all_goals exact absurd (hs.symm.trans hw) (by decide)
      · obtain ⟨-, hst⟩ | ⟨-, -, hnext⟩ := hstand (by rw [hs]; decide)
        · exact absurd (hs.symm.trans (hst hop)) (by decide)
        · exact hnext.trans haddr.symm
    · obtain ⟨p, hp, hwaits, haddr⟩ := finish_other hset clock
      rw [hp]
      refine ⟨?_, inv.room, first, next, hcut, fun hne => .inl ⟨?_, fun h => nomatch h⟩⟩
      · obtain ⟨hw, hdisc, hread⟩ | h := inv.table
        · refine .inl ⟨?_, hdisc, hread⟩
          rw [hwaits hw]
          exact hw
        · exact .inr (h.congr rfl rfl fun _ _ => rfl)
      · have hidle : r.prov.par.curSts ≠ .idle := fun hi => hne (hwaits (.inl hi) ▸ hi)
        obtain ⟨hnext, -⟩ | ⟨hr, hs, -⟩ := hstand hidle
        · exact hnext.trans haddr.symm
        · exact absurd ⟨hs, Option.some.inj (hop.symm.trans hr)⟩ hset

/-- A pass that changes `par` at most, and begins no command for an address. -/
theorem Inv.goes (inv : r.Inv) {p : FastProvPar} (hrel : r.prov.reliable = none)
    (hg : r.prov.Goes p) {rel : Option ReliableOp} (hne : rel ≠ some .addrSet) :
    Inv { r with prov := { r.prov with par := p, reliable := rel } } := by
  obtain ⟨first, next, hcut, hstand⟩ := inv.cut
  refine ⟨?_, inv.room, first, next, hcut, fun hp => .inl ⟨?_, fun h => absurd h hne⟩⟩
  · obtain ⟨hw, hdisc, hread⟩ | h := inv.table
    · exact .inl ⟨hg.waits hw, hdisc, hread⟩
    · exact .inr (h.congr rfl rfl fun _ _ => rfl)
  · obtain ⟨hnext, -⟩ | ⟨hr, -⟩ := hstand fun hi => hp (hg.idle hi)
    · exact hnext.trans (hg.addr.resolve_left hp).symm
    · exact absurd (hrel.symm.trans hr) (by decide)

/-- The begin of a round: the table is empty. -/
theorem Inv.collect (inv : r.Inv) {p : FastProvPar} (hrel : r.prov.reliable = none)
    (hidle : r.prov.par.curSts ≠ .idle) (haddr : p.provAddr = r.prov.par.provAddr)
    {rel : Option ReliableOp} (hne : rel ≠ some .addrSet) :
    Inv ⟨{ meshFastProvMacBufInit { r.prov with par := p } with reliable := rel }, [], [],
      r.given⟩ := by
  obtain ⟨first, next, hcut, hstand⟩ := inv.cut
  refine ⟨.inr ?_, inv.room, first, next, hcut, fun _ => .inl ⟨?_, fun h => absurd h hne⟩⟩
  · exact
      { len := rfl
        le := Nat.zero_le _
        cell := fun i hi => absurd hi (Nat.not_lt_zero i)
        nodup := .nil
        rLe := le_rfl
        read := List.forall_mem_nil _ }
  · obtain ⟨hnext, -⟩ | ⟨hr, -⟩ := hstand hidle
    · exact hnext.trans haddr.symm
    · exact absurd (hrel.symm.trans hr) (by decide)

/-- The next entry is read, and its node is sent the address, if the command starts. -/
theorem Inv.set (inv : r.Inv) {p : FastProvPar} (hrel : r.prov.reliable = none)
    (hs : r.prov.par.curSts = .setAddr) (hps : p.curSts = .setAddr)
    (haddr : p.provAddr = r.prov.par.provAddr) (hlt : r.prov.rIdx < r.prov.wIdx)
    (started : Bool)
    (hroom : total (r.given.map range) +
      meshFastProvGetEleCnt (r.prov.macBuf r.prov.rIdx).pid ≤ 2 ^ 16) :
    Inv
      { prov :=
          { r.prov with
            par := p
            rIdx := r.prov.rIdx + 1
            reliable := if started then some .addrSet else none }
        discovered := r.discovered
        read := (r.prov.rIdx, r.prov.macBuf r.prov.rIdx) :: r.read
        given := if started then
            (r.prov.par.provAddr, r.prov.macBuf r.prov.rIdx) :: r.given
          else r.given } := by
  obtain ⟨first, next, hcut, hstand⟩ := inv.cut
  have h : r.Tabled := by
    refine inv.table.resolve_left fun hf => ?_
    obtain hw | hw | hw := hf.1
    all_goals exact absurd (hs.symm.trans hw) (by decide)
  have hnext : next = r.prov.par.provAddr := by
    obtain ⟨hnext, -⟩ | ⟨hr, -⟩ := hstand (by rw [hs]; decide)
    · exact hnext
    · exact absurd (hrel.symm.trans hr) (by decide)
  have htable : ∀ rel given, Tabled
      ⟨{ r.prov with par := p, rIdx := r.prov.rIdx + 1, reliable := rel }, r.discovered,
        (r.prov.rIdx, r.prov.macBuf r.prov.rIdx) :: r.read, given⟩ := fun rel given =>
    { len := h.len
      le := h.le
      cell := h.cell
      nodup := h.nodup
      rLe := hlt
      read := by
        refine List.forall_mem_cons.mpr ⟨⟨Nat.lt_succ_self _, rfl⟩, fun e he => ?_⟩
        exact ⟨(h.read e he).1.trans (Nat.lt_succ_self _), (h.read e he).2⟩ }
  cases started with
  | false =>
    exact ⟨.inr (htable _ _), inv.room, first, next, hcut,
      fun _ => .inl ⟨hnext.trans haddr.symm, fun h => nomatch h⟩⟩
  | true =>
    have hcons := hcut.cons (meshFastProvGetEleCnt (r.prov.macBuf r.prov.rIdx).pid)
    refine ⟨.inr (htable _ _), (Nat.add_comm _ _).trans_le hroom, first,
      next + BitVec.ofNat 16 (meshFastProvGetEleCnt (r.prov.macBuf r.prov.rIdx).pid), ?_,
      fun _ => .inr ⟨rfl, hps, ?_⟩⟩
    · subst hnext
      exact hcons
    · exact congrArg (· + _) (hnext.trans haddr.symm)

/-- What the commands for an address are not. -/
theorem command_plain {c : FastProvCmd} (hc : c = .provConfirm ∨ c.reliableOp = none)
    (f : FastProv) (started : Bool) : r.command f started c = { r with prov := f } := by
  obtain rfl | hnone := hc
  · rfl
  · cases c with
    | resetNetwork | provDataSet | provComplete => rfl
    | addrGet | addrGetRetry | addrSet | provConfirm => exact nomatch hnone

theorem exists_reliable {f : FastProv} {c : FastProvCmd} (hrel : f.reliable = none)
    (hc : c.reliableOp ≠ some .addrSet) (started : Bool) :
    ∃ rel, sendOpParaDebugVendor f c started = { f with reliable := rel } ∧
      rel ≠ some .addrSet := by
  unfold sendOpParaDebugVendor
  have hsame : f.reliable ≠ some .addrSet := by
    rw [hrel]
    decide
  cases hop : c.reliableOp with
  | none => exact ⟨f.reliable, rfl, hsame⟩
  | some op =>
    cases started with
    | false => exact ⟨f.reliable, rfl, hsame⟩
    | true => exact ⟨some op, rfl, hop ▸ hc⟩

theorem inv_proc (inv : r.Inv) {busySegment started : Bool} {clock : BitVec 32}
    (hd : r.Distinct (.proc busySegment started clock)) :
    (r.step (.proc busySegment started clock)).Inv := by
  have hcase := r.prov.procCase busySegment clock
  unfold step
  dsimp only
  generalize meshFastProvProc r.prov busySegment clock = out at hcase ⊢
  obtain ⟨f, cmd⟩ := out
  dsimp only at hcase
  cases hcase with
  | busy => exact inv
  | @go p cmd hrel hg hcmd =>
    cases cmd with
    | none => exact inv.goes hrel hg (by rw [hrel]; decide)
    | some c =>
      have hc := hcmd c rfl
      have hne : c.reliableOp ≠ some .addrSet := by
        obtain rfl | hnone := hc
        · decide
        · rw [hnone]
          decide
      obtain ⟨rel, hsend, hrelne⟩ :=
        exists_reliable (f := { r.prov with par := p }) hrel hne started
      dsimp only
      rw [hsend, command_plain hc]
      exact inv.goes hrel hg hrelne
  | @collect p cmd hrel hidle haddr hsts hcmd =>
    have hop : cmd.reliableOp = some .addrGet := by
      obtain rfl | rfl := hcmd
      · rfl
      · rfl
    have hne : cmd.reliableOp ≠ some .addrSet := by
      rw [hop]
      decide
    obtain ⟨rel, hsend, hrelne⟩ :=
      exists_reliable (f := meshFastProvMacBufInit { r.prov with par := p }) hrel hne started
    dsimp only
    rw [hsend]
    obtain rfl | rfl := hcmd
    · exact inv.collect hrel hidle haddr hrelne
    · exact inv.collect hrel hidle haddr hrelne
  | set mac hrel hs hps haddr hlt =>
    have hroom := hd hs hrel hlt
    have h := inv.set hrel hs hps haddr hlt started hroom
    cases started with
    | false => exact hrel ▸ h
    | true => exact h

theorem inv_step (inv : r.Inv) {e : FastProvEvent} (hd : r.Distinct e) : (r.step e).Inv := by
  cases e with
  | proc busySegment started clock => exact inv_proc inv hd
  | rsp rsp clock => exact inv_rsp inv hd
  | finish clock => exact inv_finish inv clock
  | otherReliable =>
    unfold step
    dsimp only
    split_ifs with hnone
    · obtain ⟨first, next, hcut, hstand⟩ := inv.cut
      refine ⟨?_, inv.room, first, next, hcut, fun hne => ?_⟩
      · exact inv.table.imp id fun h => h.congr rfl rfl fun _ _ => rfl
      · obtain ⟨hnext, -⟩ | ⟨hset, -⟩ := hstand hne
        · exact .inl ⟨hnext, fun h => absurd h (show some ReliableOp.other ≠ _ by decide)⟩
        · exact absurd (hset.symm.trans hnone) (by decide)
    · exact inv

end FastProvRun

open FastProvRun

/-- **Allocation.**  If no source answers again when the buffer is full and the addresses
do not run out, every node has one entry, with its own MAC, an entry that was read stays
as it is, and the ranges of addresses that were given do not overlap. -/
theorem fastProv_allocates {r : FastProvRun} (h : (fastProvSys.restrict Distinct).Reach r) :
    r.Allocates := by
  refine Inv.allocates (Sys.Reach.inv (P := Inv) h (fun s hs => inv_starts hs) ?_)
  rintro s e _ inv ⟨hd, rfl⟩
  exact inv_step inv hd

/-! ### Two runs -/

/-- A provisioner that was started, with the next address `2`. -/
def fastProvStarted : FastProvRun where
  prov := meshFastProvStart ⟨meshFastProvValInit, 0, 0, fun _ => ⟨0, 0, 0⟩, none⟩ 1 2 1
  discovered := []
  read := []
  given := []

/-- The status of a light with two elements. -/
def addrGetSts (src : BitVec 16) (mac : BitVec 48) : FastProvEvent :=
  .rsp ⟨.addrGetSts, src, mac, 1⟩ 0x2000003

/-- The reset of the network, and the first question. -/
def fastProvBegin : List FastProvEvent := [.proc false true 3, .proc false true 0x2000001]

theorem fastProvSys_reach (es : List FastProvEvent) (h : GoodRun step Distinct fastProvStarted es) :
    (fastProvSys.restrict Distinct).Reach (es.foldl step fastProvStarted) := by
  have h0 : (fastProvSys.restrict Distinct).Reach fastProvStarted :=
    .init ⟨⟨_, _, _, _, rfl⟩, rfl, rfl, rfl⟩
  exact Sys.reach_foldl_restrict h0 h

/-- Two nodes, the first of which answers twice, and their addresses. -/
def fastProvTwo : List FastProvEvent :=
  fastProvBegin ++ [addrGetSts 0x11 0xa1, addrGetSts 0x11 0xa1, addrGetSts 0x12 0xa2,
    .finish 0x2000005, .proc false true 0x2000007, .finish 0x2000009, .proc false true 0x200000b]

theorem fastProv_allocates_two : (fastProvTwo.foldl step fastProvStarted).Allocates :=
  fastProv_allocates (fastProvSys_reach fastProvTwo (by decide +kernel))

/-- `32` nodes, the second of which answers twice. -/
def fastProvFull : FastProvRun :=
  (fastProvBegin ++
    (List.range 32).map (fun i => addrGetSts (0x100 + BitVec.ofNat 16 i) (BitVec.ofNat 48 i)) ++
    [addrGetSts 0x101 1]).foldl step fastProvStarted

/-- The entry of the first node holds the MAC of the second. -/
theorem fastProv_full_repeated : ¬ ∀ r, fastProvSys.Reach r → r.Allocates := by
  intro h
  have h0 : fastProvSys.Reach fastProvStarted := .init ⟨⟨_, _, _, _, rfl⟩, rfl, rfl, rfl⟩
  have hreach : fastProvSys.Reach fastProvFull := Sys.reach_foldl h0 _
  obtain ⟨-, hown⟩ := (h _ hreach).own ⟨0, 1, 0x100⟩ (by decide +kernel)
  revert hown
  decide +kernel

end PirMesh
