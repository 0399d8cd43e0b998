import PirMesh.FastProv.DeviceSpec
import PirMesh.Library.Run

/-! # FastProv — When a session ends

From the first transition on a session times out at the latest (`Live`).  Before
it, a device whose opcode cell has moved on past the address-get stays idle, with
no timer (`Late`).  `phase_of_prefix` says which of the two a session in protocol
order comes to. -/

namespace PirMesh.FastProvDev

open Run

/-! ### Sessions in order -/

/-- The place of a message in the protocol. -/
def stage : FastProvMsg → ℕ
  | .resetNetwork _ => 0
  | .addrGet _ _ => 1
  | .addrSet _ _ => 2
  | .provDataSet _ _ => 3
  | .provConfirm => 4
  | .provComplete _ => 5

/-- The node takes an address from the message. -/
def Takes (cfg : DevConfig) (m : FastProvMsg) : Prop := (adopted cfg m).isSome

/-- The messages come in the order of the protocol, each at least once; only the reset of the
network, which such a node ignores, may be missing. -/
structure InOrder (cfg : DevConfig) (ms : List FastProvMsg) : Prop where
  sorted : ms.Pairwise (stage · ≤ stage ·)
  all : ∀ n < 5, ∃ m ∈ ms, stage m = n + 1
  takes : ∃ m ∈ ms, Takes cfg m

def messages (es : List DevEvent) : List FastProvMsg :=
  es.filterMap fun
    | .message m _ => some m
    | .pass _ _ => none

/-- A pass comes behind an address-get and before an address is taken. -/
def SeesGet (cfg : DevConfig) (es : List DevEvent) : Prop :=
  ∃ pre clock post, es = pre ++ .pass false clock :: post ∧
    (∃ m ∈ messages pre, stage m = 1) ∧ ∀ m ∈ messages pre, ¬ Takes cfg m

/-- The passes keep coming, and the time goes on. -/
def Fair (clk : ℕ → BitVec 32) : Prop :=
  ∀ ref N, ∃ n ≥ N, clockTickExceed (clk n) ref fastProvisionTimeoutUs = true

/-- `n` passes, at the times of `clk`. -/
def after (cfg : DevConfig) (clk : ℕ → BitVec 32) (r : DevRun) : ℕ → DevRun
  | 0 => r
  | n + 1 => (after cfg clk r n).next cfg (.pass false (clk n))

/-- However the passes come, a session ended or will. -/
def Ends (cfg : DevConfig) (r : DevRun) : Prop :=
  ∀ clk, Fair clk → ∃ n, (after cfg clk r n).outcomes ≠ []

section

variable {cfg : DevConfig}

theorem messages_append_message (es : List DevEvent) (m : FastProvMsg) (clock : BitVec 32) :
    messages (es ++ [.message m clock]) = messages es ++ [m] := by
  simp [messages]

theorem messages_append_pass (es : List DevEvent) (busy : Bool) (clock : BitVec 32) :
    messages (es ++ [.pass busy clock]) = messages es := by
  simp [messages]

theorem Takes.stage {m : FastProvMsg} (h : Takes cfg m) : stage m = 2 := by
  cases m with
  | addrSet mac addr => rfl
  | resetNetwork _ => cases h
  | addrGet _ _ => cases h
  | provDataSet _ _ => cases h
  | provConfirm => cases h
  | provComplete _ => cases h

section

variable {ps rest : List FastProvMsg} {m : FastProvMsg} (h : InOrder cfg (ps ++ m :: rest))

include h

theorem InOrder.before {k : FastProvMsg} (hk : k ∈ ps) : stage k ≤ stage m :=
  (List.pairwise_append.mp h.sorted).2.2 k hk m List.mem_cons_self

/-- What comes earlier in the protocol has come. -/
theorem InOrder.came {k : FastProvMsg} (hk : k ∈ ps ++ m :: rest) (hlt : stage k < stage m) :
    k ∈ ps := by
  cases List.mem_append.mp hk with
  | inl hmem => exact hmem
  | inr hmem =>
    cases List.mem_cons.mp hmem with
    | inl heq => exact absurd (heq ▸ hlt) (Nat.lt_irrefl _)
    | inr hlater =>
      have hle := List.rel_of_pairwise_cons (List.pairwise_append.mp h.sorted).2.1 hlater
      exact absurd hlt (Nat.not_lt.mpr hle)

theorem InOrder.get_came (hm : 1 < stage m) : ∃ k ∈ ps, stage k = 1 := by
  obtain ⟨k, hk, hstage⟩ := h.all 0 (by decide)
  exact ⟨k, h.came hk (by omega), hstage⟩

theorem InOrder.take_came (hm : 2 < stage m) : ∃ k ∈ ps, Takes cfg k := by
  obtain ⟨k, hk, htakes⟩ := h.takes
  have hstage := htakes.stage
  exact ⟨k, h.came hk (by omega), htakes⟩

end

/-! ### Phases -/

/-- The timer runs, or a session ended. -/
def Live (r : DevRun) : Prop :=
  r.outcomes ≠ [] ∨ r.dev.notNeedProv = false ∧ r.dev.par.curSts ≠ .idle ∧
    r.dev.par.startTick ≠ 0

/-- Nothing has happened yet. -/
structure Idle (r : DevRun) : Prop where
  needs : r.dev.notNeedProv = false
  idle : r.dev.par.curSts = .idle
  noTimer : r.dev.par.startTick = 0
  outcomes : r.outcomes = []

/-- No address is taken yet. -/
structure Early (cfg : DevConfig) (ps : List FastProvMsg) (r : DevRun) : Prop extends Idle r where
  unset : (¬ ∃ m ∈ ps, stage m = 1) → r.dev.rcvOp = none
  get : (∃ m ∈ ps, stage m = 1) → r.dev.rcvOp = some .addrGet
  mac : (∀ m ∈ ps, stage m ≤ 1) → r.dev.getMacEn = true
  takes : ∀ m ∈ ps, ¬ Takes cfg m

/-- The opcode cell has moved on. -/
structure Late (r : DevRun) : Prop extends Idle r where
  op : ∃ op, r.dev.rcvOp = some op ∧ op ≠ .addrGet ∧ op ≠ .resetNetwork

theorem Idle.notUp {r : DevRun} (h : Idle r) (clock : BitVec 32) : ¬ TimeIsUp r.dev clock :=
  fun hup => hup.1 h.noTimer

/-- A pass of an idle device. -/
theorem Idle.proc {r : DevRun} (h : Idle r) (hinv : RunInv cfg r) (clock : BitVec 32) :
    r.dev.proc cfg false clock = (r.dev.switch clock, none) := by
  have hs := hinv.2 h.needs
  rcases proc_cases cfg h.needs (hinv.1.symm.trans h.needs) hs.noReset hs.noTimeOut clock with
    ⟨hup, -⟩ | ⟨hdone, -⟩ | ⟨-, hproc⟩
  · exact absurd hup (h.notUp clock)
  · rw [h.idle] at hdone
    cases hdone
  · exact hproc

theorem Late.pass {r : DevRun} (h : Late r) (hinv : RunInv cfg r) (busy : Bool)
    (clock : BitVec 32) : r.next cfg (.pass busy clock) = r := by
  cases busy with
  | true => rfl
  | false =>
    obtain ⟨op, hop, hget, hreset⟩ := h.op
    have hstay : r.dev.switch clock = r.dev := by
      rw [FastProvDev.switch, hop, h.idle]
      cases op with
      | resetNetwork => exact absurd rfl hreset
      | addrGet => exact absurd rfl hget
      | _ => rfl
    rw [DevRun.next, h.toIdle.proc hinv, hstay]

theorem begins_early {r : DevRun} (h : r.Begins) : Early cfg [] r := by
  have hfresh := begins_fresh h
  refine ⟨⟨hfresh.needs, hfresh.idle, ?_, h.outcomes⟩, fun _ => hfresh.rcvOp, ?_, fun _ => ?_,
    fun m hm => absurd hm List.not_mem_nil⟩
  · rw [hfresh.valInit]
    rfl
  · rintro ⟨m, hm, -⟩
    exact absurd hm List.not_mem_nil
  · rw [hfresh.valInit]
    exact congrArg (!·) hfresh.provisioned

theorem Idle.message {r : DevRun} (h : Idle r) (m : FastProvMsg) (clock : BitVec 32) :
    Idle (r.next cfg (.message m clock)) := by
  have hsame := receive_same cfg r.dev clock m
  exact ⟨hsame.notNeedProv.trans h.needs, hsame.curSts.trans h.idle,
    hsame.startTick.trans h.noTimer, h.outcomes⟩

/-- An address-set that the node takes no address from leaves the cell alone. -/
theorem receive_set_not_taken {dev : FastProvDev} (hneed : dev.notNeedProv = false)
    {mac : BitVec 48} {addr : BitVec 16} (h : ¬ Takes cfg (.addrSet mac addr))
    (clock : BitVec 32) : (dev.receive cfg clock (.addrSet mac addr)).rcvOp = dev.rcvOp := by
  by_cases hmac : mac = cfg.tblMac
  · cases hmac
    have hnot : isUnicast addr = false := by
      cases hadr : isUnicast addr with
      | false => rfl
      | true =>
        refine absurd ?_ h
        rw [Takes, adopted, setAddr, if_pos rfl, Option.filter_some, if_pos hadr]
        rfl
    exact ((receive_addrSet cfg clock hneed addr).2.2.2 hnot).2
  · rw [receive_addrSet_other cfg clock hneed hmac]

/-- One that the node takes an address from is written into it. -/
theorem receive_set_taken {dev : FastProvDev} (hneed : dev.notNeedProv = false)
    {mac : BitVec 48} {addr : BitVec 16} (h : Takes cfg (.addrSet mac addr))
    (clock : BitVec 32) :
    (dev.receive cfg clock (.addrSet mac addr)).rcvOp = some .addrSet := by
  obtain ⟨a, ha⟩ := Option.isSome_iff_exists.mp h
  obtain ⟨hset, huni⟩ := Option.filter_eq_some_iff.mp ha
  by_cases hmac : mac = cfg.tblMac
  · cases hmac
    rw [setAddr, if_pos rfl] at hset
    cases hset
    exact ((receive_addrSet cfg clock hneed addr).2.2.1 huni).2
  · rw [setAddr, if_neg hmac] at hset
    cases hset

theorem Early.message {ps rest : List FastProvMsg} {m : FastProvMsg} {r : DevRun}
    (h : Early cfg ps r) (hord : InOrder cfg (ps ++ m :: rest)) (clock : BitVec 32) :
    Early cfg (ps ++ [m]) (r.next cfg (.message m clock)) ∨
      Takes cfg m ∧ Late (r.next cfg (.message m clock)) := by
  have hidle : Idle (r.next cfg (.message m clock)) := h.toIdle.message m clock
  have htaken : 2 < stage m → False := by
    intro hstage
    obtain ⟨k, hk, htakes⟩ := hord.take_came hstage
    exact h.takes k hk htakes
  cases m with
  | addrGet pid eleAddr =>
    have hgets : ∀ k ∈ ps, stage k ≤ 1 := fun k hk => hord.before hk
    obtain ⟨hop, hmac, -⟩ := receive_addrGet_on cfg clock h.needs (h.mac hgets) pid eleAddr
    have hget : ∃ k ∈ ps ++ [.addrGet pid eleAddr], stage k = 1 :=
      ⟨_, List.mem_append_right ps (List.mem_singleton_self _), rfl⟩
    refine .inl ⟨hidle, fun hno => absurd hget hno, fun _ => hop, fun _ => hmac, fun k hk => ?_⟩
    cases List.mem_append.mp hk with
    | inl hmem => exact h.takes k hmem
    | inr hmem =>
      intro htakes
      have hstage := htakes.stage
      rw [List.mem_singleton.mp hmem] at hstage
      cases hstage
  | addrSet mac addr =>
    by_cases htakes : Takes cfg (.addrSet mac addr)
    · exact .inr ⟨htakes, hidle, _, receive_set_taken h.needs htakes clock, by decide⟩
    · have hop := receive_set_not_taken h.needs htakes clock
      obtain ⟨get, hget, hstage⟩ := hord.get_came (by decide : 1 < 2)
      refine .inl ⟨hidle, fun hno => ?_, fun _ => ?_, fun hgets => ?_, fun k hk => ?_⟩
      · exact absurd ⟨get, List.mem_append_left _ hget, hstage⟩ hno
      · exact hop.trans (h.get ⟨get, hget, hstage⟩)
      · have hset := hgets _ (List.mem_append_right ps (List.mem_singleton_self _))
        exact absurd hset (by decide : ¬ 2 ≤ 1)
      · cases List.mem_append.mp hk with
        | inl hmem => exact h.takes k hmem
        | inr hmem => rwa [List.mem_singleton.mp hmem]
  | provDataSet _ _ => exact (htaken (by decide : 2 < 3)).elim
  | provConfirm => exact (htaken (by decide : 2 < 4)).elim
  | provComplete _ => exact (htaken (by decide : 2 < 5)).elim
  | resetNetwork delay =>
    have hresets : ∀ k ∈ ps ++ [.resetNetwork delay], stage k ≤ 0 := by
      intro k hk
      cases List.mem_append.mp hk with
      | inl hmem => exact hord.before hmem
      | inr hmem => rw [List.mem_singleton.mp hmem]; rfl
    have hsame : (r.next cfg (.message (.resetNetwork delay) clock)).dev = r.dev :=
      receive_resetNetwork cfg clock h.needs delay
    refine .inl ⟨hidle, fun _ => ?_, ?_, fun _ => ?_, fun k hk htakes => ?_⟩
    · rw [hsame]
      refine h.unset ?_
      rintro ⟨k, hk, hstage⟩
      have hle := hresets k (List.mem_append_left _ hk)
      omega
    · rintro ⟨k, hk, hstage⟩
      have hle := hresets k hk
      omega
    · rw [hsame]
      exact h.mac fun k hk => (hord.before hk).trans (Nat.zero_le 1)
    · have hle := hresets k hk
      have hstage := htakes.stage
      omega

theorem Late.message {m : FastProvMsg} {r : DevRun} (h : Late r) (hm : 1 < stage m)
    (clock : BitVec 32) : Late (r.next cfg (.message m clock)) := by
  have hidle : Idle (r.next cfg (.message m clock)) := h.toIdle.message m clock
  refine ⟨hidle, ?_⟩
  have hop := h.op
  rw [DevRun.next]
  dsimp only
  cases m with
  | addrGet pid eleAddr => exact absurd hm (by decide : ¬ 1 < 1)
  | addrSet mac addr =>
    by_cases htakes : Takes cfg (.addrSet mac addr)
    · exact ⟨_, receive_set_taken h.needs htakes clock, by decide⟩
    · rwa [receive_set_not_taken h.needs htakes clock]
  | provDataSet data appkey =>
    rw [receive_data cfg clock h.needs]
    exact ⟨_, rfl, by decide⟩
  | provConfirm =>
    rw [receive_confirm cfg clock h.needs]
    exact ⟨_, rfl, by decide⟩
  | provComplete delay => exact ⟨_, rfl, by decide⟩
  | resetNetwork delay => exact absurd hm (by decide : ¬ 1 < 0)

/-- A pass before anything came, or while the other tasks are busy. -/
theorem Early.wait {ps : List FastProvMsg} {r : DevRun} (h : Early cfg ps r)
    (hinv : RunInv cfg r) {busy : Bool} (hno : busy = true ∨ ¬ ∃ m ∈ ps, stage m = 1)
    (clock : BitVec 32) :
    r.next cfg (.pass busy clock) = r := by
  cases busy with
  | true => rfl
  | false =>
    have hop := h.unset (hno.resolve_left Bool.false_ne_true)
    have hstay : r.dev.switch clock = r.dev := by
      rw [FastProvDev.switch, hop]
      rfl
    rw [DevRun.next, h.toIdle.proc hinv, hstay]

/-- A pass that finds the address-get. -/
theorem Early.sees {ps : List FastProvMsg} {r : DevRun} (h : Early cfg ps r)
    (hinv : RunInv cfg r) (hget : ∃ m ∈ ps, stage m = 1) (clock : BitVec 32) :
    Live (r.next cfg (.pass false clock)) := by
  have hswitch : r.dev.switch clock = r.dev.stsSet .getAddr clock := by
    rw [FastProvDev.switch, h.get hget, h.idle]
    rfl
  rw [DevRun.next, h.toIdle.proc hinv, hswitch]
  refine .inr ⟨h.needs, ?_, stsSet_startTick r.dev (by decide) clock⟩
  dsimp only
  rw [stsSet_curSts]
  decide

theorem Live.message {r : DevRun} (h : Live r) (m : FastProvMsg) (clock : BitVec 32) :
    Live (r.next cfg (.message m clock)) := by
  have hsame := receive_same cfg r.dev clock m
  rcases h with hout | ⟨hneed, hsts, htick⟩
  · exact .inl hout
  · refine .inr ⟨hsame.notNeedProv.trans hneed, ?_, ?_⟩
    · exact fun heq => hsts (hsame.curSts.symm.trans heq)
    · exact fun heq => htick (hsame.startTick.symm.trans heq)

/-- A transition starts the timer anew. -/
theorem switch_timer {dev : FastProvDev} (hsts : dev.par.curSts ≠ .idle)
    (htick : dev.par.startTick ≠ 0) (clock : BitVec 32) :
    (dev.switch clock).par.curSts ≠ .idle ∧ (dev.switch clock).par.startTick ≠ 0 := by
  rw [FastProvDev.switch]
  cases htarget : target dev.rcvOp dev.par.curSts with
  | none => exact ⟨hsts, htick⟩
  | some sts =>
    have hne : sts ≠ .idle := by
      rcases target_some htarget with h1 | h1 | h1 | h1 | h1 | h1 <;> rw [h1.2.2] <;> decide
    refine ⟨?_, stsSet_startTick dev hne clock⟩
    dsimp only
    rwa [stsSet_curSts]

theorem outcomes_next {r : DevRun} (h : r.outcomes ≠ []) (e : DevEvent) :
    (r.next cfg e).outcomes ≠ [] := by
  cases e with
  | message m clock => exact h
  | pass busy clock =>
    rw [DevRun.next]
    split
    · exact h
    · simp

theorem Live.pass {r : DevRun} (h : Live r) (hinv : RunInv cfg r) (busy : Bool)
    (clock : BitVec 32) : Live (r.next cfg (.pass busy clock)) := by
  rcases h with hout | ⟨hneed, hsts, htick⟩
  · exact .inl (outcomes_next hout _)
  cases busy with
  | true => exact .inr ⟨hneed, hsts, htick⟩
  | false =>
    have hs := hinv.2 hneed
    rcases proc_cases cfg hneed (hinv.1.symm.trans hneed) hs.noReset hs.noTimeOut clock with
      ⟨-, dev', hproc, -⟩ | ⟨-, dev', hproc, -⟩ | ⟨-, hproc⟩
    · rw [DevRun.next, hproc]
      exact .inl (by simp)
    · rw [DevRun.next, hproc]
      exact .inl (by simp)
    · rw [DevRun.next, hproc]
      obtain ⟨hsts', htick'⟩ := switch_timer hsts htick clock
      exact .inr ⟨(switch_same r.dev clock).1.trans hneed, hsts', htick'⟩

/-! ### The phases of a run -/

theorem seesGet_message (es : List DevEvent) (m : FastProvMsg) (clock : BitVec 32) :
    SeesGet cfg (es ++ [.message m clock]) ↔ SeesGet cfg es := by
  constructor
  · rintro ⟨pre, c, post, heq, hget⟩
    rcases History.split_snoc heq with ⟨-, hlast, -⟩ | ⟨post', -, hes⟩
    · cases hlast
    · exact ⟨pre, c, post', hes, hget⟩
  · rintro ⟨pre, c, post, rfl, hget⟩
    exact ⟨pre, c, post ++ [.message m clock], by simp, hget⟩

theorem seesGet_pass (es : List DevEvent) (busy : Bool) (clock : BitVec 32) :
    SeesGet cfg (es ++ [.pass busy clock]) ↔ SeesGet cfg es ∨ busy = false ∧
      (∃ m ∈ messages es, stage m = 1) ∧ ∀ m ∈ messages es, ¬ Takes cfg m := by
  constructor
  · rintro ⟨pre, c, post, heq, hget⟩
    rcases History.split_snoc heq with ⟨hpre, hlast, -⟩ | ⟨post', -, hes⟩
    · cases hlast
      cases hpre
      exact .inr ⟨rfl, hget⟩
    · exact .inl ⟨pre, c, post', hes, hget⟩
  · rintro (⟨pre, c, post, rfl, hget⟩ | ⟨rfl, hget⟩)
    · exact ⟨pre, c, post ++ [.pass busy clock], by simp, hget⟩
    · exact ⟨es, clock, [], rfl, hget⟩

/-- What a session in order has come to. -/
theorem phase_of_prefix {r : DevRun} (hr : r.Begins) {es : List DevEvent} :
    ∀ {rest}, InOrder cfg (messages es ++ rest) →
      (SeesGet cfg es ∧ Live (es.foldl (DevRun.next cfg) r)) ∨
      (¬ SeesGet cfg es ∧ (Early cfg (messages es) (es.foldl (DevRun.next cfg) r) ∨
        (∃ m ∈ messages es, Takes cfg m) ∧ Late (es.foldl (DevRun.next cfg) r))) := by
  induction es using List.reverseRecOn with
  | nil =>
    intro rest _
    refine .inr ⟨?_, .inl (begins_early hr)⟩
    rintro ⟨pre, clock, post, heq, -⟩
    simp at heq
  | append_singleton es e ih =>
    intro rest hord
    have hinv := runInv_foldl cfg (begins_inv hr) es
    rw [List.foldl_append, List.foldl_cons, List.foldl_nil]
    cases e with
    | message m clock =>
      rw [messages_append_message, List.append_assoc] at hord
      rw [messages_append_message, seesGet_message]
      rcases ih hord with ⟨hsees, hlive⟩ | ⟨hsees, hearly | ⟨⟨k, hk, htakes⟩, hlate⟩⟩
      · exact .inl ⟨hsees, hlive.message m clock⟩
      · refine .inr ⟨hsees, ?_⟩
        rcases hearly.message hord clock with hearly' | ⟨htakes, hlate⟩
        · exact .inl hearly'
        · exact .inr ⟨⟨m, List.mem_append_right _ (List.mem_singleton_self m), htakes⟩, hlate⟩
      · have hm : 1 < stage m := by
          have hle := hord.before hk
          have hstage := htakes.stage
          omega
        exact .inr ⟨hsees, .inr ⟨⟨k, List.mem_append_left _ hk, htakes⟩,
          hlate.message hm clock⟩⟩
    | pass busy clock =>
      rw [messages_append_pass] at hord
      rw [messages_append_pass, seesGet_pass]
      rcases ih hord with ⟨hsees, hlive⟩ | ⟨hsees, hearly | ⟨⟨k, hk, htakes⟩, hlate⟩⟩
      · exact .inl ⟨.inl hsees, hlive.pass hinv busy clock⟩
      · by_cases hget : busy = false ∧ ∃ m ∈ messages es, stage m = 1
        · obtain ⟨rfl, hget⟩ := hget
          exact .inl ⟨.inr ⟨rfl, hget, hearly.takes⟩, hearly.sees hinv hget clock⟩
        · have hno : busy = true ∨ ¬ ∃ m ∈ messages es, stage m = 1 := by
            cases busy with
            | true => exact .inl rfl
            | false => exact .inr fun h => hget ⟨rfl, h⟩
          rw [hearly.wait hinv hno]
          refine .inr ⟨?_, .inl hearly⟩
          rintro (hold | ⟨hbusy, hfound, -⟩)
          · exact hsees hold
          · exact hget ⟨hbusy, hfound⟩
      · rw [hlate.pass hinv]
        refine .inr ⟨?_, .inr ⟨⟨k, hk, htakes⟩, hlate⟩⟩
        rintro (hold | ⟨-, -, hnone⟩)
        · exact hsees hold
        · exact hnone k hk htakes

/-! ### Passes to the end -/

/-- The opcode leads no further. -/
def Stable (dev : FastProvDev) : Prop := target dev.rcvOp dev.par.curSts = none

theorem Stable.switch {dev : FastProvDev} (h : Stable dev) (clock : BitVec 32) :
    dev.switch clock = dev := by
  rw [FastProvDev.switch, h]

/-- An opcode leads one step at most. -/
theorem switch_stable (dev : FastProvDev) (clock : BitVec 32) : Stable (dev.switch clock) := by
  rw [FastProvDev.switch]
  cases htarget : target dev.rcvOp dev.par.curSts with
  | none => exact htarget
  | some sts =>
    have hop : (dev.stsSet sts clock).rcvOp = dev.rcvOp := rfl
    dsimp only
    rw [Stable, stsSet_curSts, hop]
    rcases target_some htarget with h1 | h1 | h1 | h1 | h1 | h1 <;> rw [h1.1, h1.2.2] <;> rfl

theorem after_inv {r : DevRun} (h : RunInv cfg r) (clk : ℕ → BitVec 32) (n : ℕ) :
    RunInv cfg (after cfg clk r n) := by
  induction n with
  | zero => exact h
  | succ n ih => exact ih.next _

/-- A pass that ends no session is a transition, before the time is up. -/
theorem pass_of_no_outcome {r : DevRun} (hinv : RunInv cfg r) (hneed : r.dev.notNeedProv = false)
    {clock : BitVec 32} (h : (r.next cfg (.pass false clock)).outcomes = []) :
    ¬ TimeIsUp r.dev clock ∧
      r.next cfg (.pass false clock) = { r with dev := r.dev.switch clock } := by
  have hs := hinv.2 hneed
  rcases proc_cases cfg hneed (hinv.1.symm.trans hneed) hs.noReset hs.noTimeOut clock with
    ⟨-, dev', hproc, -⟩ | ⟨-, dev', hproc, -⟩ | ⟨hup, hproc⟩
  · rw [DevRun.next, hproc] at h
    simp at h
  · rw [DevRun.next, hproc] at h
    simp at h
  · refine ⟨hup, ?_⟩
    rw [DevRun.next, hproc]

theorem Live.ends {r : DevRun} (h : Live r) (hinv : RunInv cfg r) : Ends cfg r := by
  intro clk hfair
  by_contra hnever
  have hnone : ∀ n, (after cfg clk r n).outcomes = [] := by
    intro n
    by_contra hsome
    exact hnever ⟨n, hsome⟩
  obtain ⟨hneed, hsts, htick⟩ := h.resolve_left (not_not.mpr (hnone 0))
  obtain ⟨-, hfirst⟩ := pass_of_no_outcome hinv hneed (hnone 1)
  have hneed' : (r.dev.switch (clk 0)).notNeedProv = false := (switch_same r.dev _).1.trans hneed
  -- from the first pass on the device stays as it is
  have hstays : ∀ n, after cfg clk r (n + 1) = { r with dev := r.dev.switch (clk 0) } := by
    intro n
    induction n with
    | zero => exact hfirst
    | succ n ih =>
      have hlast := after_inv hinv clk (n + 1)
      have hnext := hnone (n + 2)
      rw [after, ih] at hnext
      rw [ih] at hlast
      rw [after, ih, (pass_of_no_outcome hlast hneed' hnext).2]
      dsimp only
      rw [(switch_stable r.dev (clk 0)).switch]
  obtain ⟨n, hn, hexceed⟩ := hfair (r.dev.switch (clk 0)).par.startTick 1
  obtain ⟨n, rfl⟩ := Nat.exists_eq_add_of_le' hn
  have hlast := after_inv hinv clk (n + 1)
  have hnext := hnone (n + 2)
  rw [after, hstays] at hnext
  rw [hstays] at hlast
  exact (pass_of_no_outcome hlast hneed' hnext).1
    ⟨(switch_timer hsts htick (clk 0)).2, hexceed⟩

/-- A clock that shows every time again and again. -/
theorem fair_ofNat : Fair (BitVec.ofNat 32) := by
  intro ref N
  have hlt := (ref + 960000001#32).isLt
  refine ⟨2 ^ 32 * N + (ref + 960000001#32).toNat, by omega, ?_⟩
  have hclock : BitVec.ofNat 32 (2 ^ 32 * N + (ref + 960000001#32).toNat) =
      ref + 960000001#32 := by
    apply BitVec.eq_of_toNat_eq
    rw [BitVec.toNat_ofNat, Nat.mul_add_mod, Nat.mod_eq_of_lt hlt]
  rw [hclock, clockTickExceed, BitVec.add_comm, BitVec.add_sub_cancel]
  decide

theorem Late.not_ends {r : DevRun} (h : Late r) (hinv : RunInv cfg r) : ¬ Ends cfg r := by
  intro hends
  obtain ⟨n, hn⟩ := hends _ fair_ofNat
  have hstays : ∀ n, after cfg (BitVec.ofNat 32) r n = r := by
    intro n
    induction n with
    | zero => rfl
    | succ n ih => rw [after, ih, h.pass hinv]
  rw [hstays n] at hn
  exact hn h.outcomes

/-- A session in order ends exactly when a pass sees its address-get. -/
theorem ends_iff {r : DevRun} (hr : r.Begins) {es : List DevEvent}
    (hord : InOrder cfg (messages es)) :
    Ends cfg (es.foldl (DevRun.next cfg) r) ↔ SeesGet cfg es := by
  have hinv := runInv_foldl cfg (begins_inv hr) es
  have hord' : InOrder cfg (messages es ++ []) := by rwa [List.append_nil]
  obtain ⟨m, hm, htakes⟩ := hord.takes
  rcases phase_of_prefix hr hord' with ⟨hsees, hlive⟩ | ⟨hsees, hearly | ⟨-, hlate⟩⟩
  · exact iff_of_true (hlive.ends hinv) hsees
  · exact absurd htakes (hearly.takes m hm)
  · exact iff_of_false (hlate.not_ends hinv) hsees

end

/-! ### Sessions -/

/-- What a run of a device should do. -/
structure RunOk (cfg : DevConfig) (r : DevRun) (es : List DevEvent) : Prop where
  installs : ∀ pre busy clock post info, es = pre ++ .pass busy clock :: post →
    ((pre.foldl (DevRun.next cfg) r).dev.proc cfg busy clock).2 = some (.installed info) →
      InstallOk cfg (pre.foldl (DevRun.next cfg) r).received info
  ends : InOrder cfg (messages es) → Ends cfg (es.foldl (DevRun.next cfg) r)

/-- When it does. -/
structure RunSound (cfg : DevConfig) (r : DevRun) (es : List DevEvent) : Prop where
  kept : ∀ pre busy clock post info, es = pre ++ .pass busy clock :: post →
    ((pre.foldl (DevRun.next cfg) r).dev.proc cfg busy clock).2 = some (.installed info) →
      AddressKept cfg (pre.foldl (DevRun.next cfg) r).received
  sees : InOrder cfg (messages es) → SeesGet cfg es

/-- A device does what it should in a run exactly when no address is acknowledged behind the
data it installs, and a session in order has a pass behind its address-get. -/
theorem device_session_iff (cfg : DevConfig) {r : DevRun} (hr : r.Begins) (es : List DevEvent) :
    RunOk cfg r es ↔ RunSound cfg r es := by
  have hinv := fun pre => runInv_foldl cfg (begins_inv hr) pre
  constructor
  · rintro ⟨hinstalls, hends⟩
    refine ⟨fun pre busy clock post info hes hinstall => ?_, fun hord => ?_⟩
    · exact (install_iff (hinv pre) hinstall).mp (hinstalls pre busy clock post info hes hinstall)
    · exact (ends_iff hr hord).mp (hends hord)
  · rintro ⟨hkept, hsees⟩
    refine ⟨fun pre busy clock post info hes hinstall => ?_, fun hord => ?_⟩
    · exact (install_iff (hinv pre) hinstall).mpr (hkept pre busy clock post info hes hinstall)
    · exact (ends_iff hr hord).mpr (hsees hord)

/-! ### A session without a pass -/

def sampleConfig : DevConfig := ⟨0xA4C138000001, 1, 0x0001⟩

/-- A device from the factory. -/
def sampleDevice : DevRun :=
  ⟨⟨meshFastProvValInit, true, false, none, .zero, 0x0001, false, false, false⟩, [], []⟩

theorem sampleDevice_begins : sampleDevice.Begins := ⟨rfl, rfl, rfl, rfl, rfl⟩

/-- The messages of a session, one behind the other. -/
def sampleMessages : List DevEvent :=
  [.message (.addrGet 0xffff none) 1, .message (.addrSet 0xA4C138000001 0x0005) 2,
    .message (.provDataSet FastProvNetInfo.zero.proData FastProvNetInfo.zero.appkeySet) 3,
    .message .provConfirm 4, .message (.provComplete 1000) 5]

theorem device_session_sample : sampleDevice.Begins ∧
    (RunOk sampleConfig sampleDevice sampleMessages ↔
      RunSound sampleConfig sampleDevice sampleMessages) :=
  ⟨sampleDevice_begins, device_session_iff sampleConfig sampleDevice_begins sampleMessages⟩

theorem sampleMessages_inOrder : InOrder sampleConfig (messages sampleMessages) where
  sorted := by decide
  all := by decide
  takes := ⟨.addrSet 0xA4C138000001 0x0005, List.mem_cons_of_mem _ List.mem_cons_self, rfl⟩

/-- With all of them handled before the next pass the device never leaves its first status. -/
theorem device_session_refuted : ¬ RunOk sampleConfig sampleDevice sampleMessages := by
  intro hok
  have hends := hok.ends sampleMessages_inOrder
  obtain ⟨pre, clock, post, heq, -⟩ :=
    (ends_iff sampleDevice_begins sampleMessages_inOrder).mp hends
  have hpass : DevEvent.pass false clock ∈ sampleMessages := by
    rw [heq]
    exact List.mem_append_right _ List.mem_cons_self
  simp [sampleMessages] at hpass

end PirMesh.FastProvDev
