import PirMesh.Phone.ProvisioningOrder

/-! # Phone — The result of a provisioning attempt

An attempt is in progress while `isProvisionning`, its data and a handler are there.  Success takes
the handler, the fail state the data and a disconnect `isProvisionning`; what the others leave
behind still acts.  `Orderly` keeps it from acting: then an attempt runs, stops and is over
(`Phase`). -/

namespace PirMesh.Provisioner

open Nor (Byte)
open LowerTransport Run

/-- A callback of the call runs. -/
def IsResult (call : ℕ) : Entry → Prop
  | .success call' => call' = call
  | .fail call' => call' = call
  | _ => False

/-- The manager sends a PDU, adds a node or calls back. -/
def Acts : Entry → Prop
  | .received _ => False
  | _ => True

instance (call : ℕ) (entry : Entry) : Decidable (IsResult call entry) :=
  match entry with
  | .success _ | .fail _ => inferInstanceAs (Decidable (_ = _))
  | .sent _ | .received _ | .nodeAdded _ _ _ => inferInstanceAs (Decidable False)

instance (entry : Entry) : Decidable (Acts entry) :=
  match entry with
  | .received _ => inferInstanceAs (Decidable False)
  | .sent _ | .nodeAdded _ _ _ | .success _ | .fail _ => inferInstanceAs (Decidable True)

namespace SigProvisioningManager

variable (m : SigProvisioningManager)

def InProgress : Prop :=
  m.isProvisionning = true ∧ m.provisioningData.isSome ∧ m.provisionResponseBlock.isSome

instance : Decidable m.InProgress := inferInstanceAs (Decidable (_ ∧ _ ∧ _))

/-- No disconnect is under way, and the handler that is installed has no timer. -/
def Settled : Prop := m.stops = 0 ∧ ∀ step ∈ m.timers, m.provisionResponseBlock ≠ some step

instance : Decidable m.Settled := inferInstanceAs (Decidable (_ ∧ _))

end SigProvisioningManager

/-- **One result.**  After a callback of the call the manager does nothing more, and it does not
settle without one. -/
structure OneResult (call : ℕ) (p : Provisioning) : Prop where
  silent : p.attempt.Pairwise fun entry later => IsResult call entry → ¬ Acts later
  settled : p.manager.Settled → ∃ entry ∈ p.attempt, IsResult call entry

/-- The PDU that is received, if any. -/
def validResponse (data : List Byte) : Option SigProvisioningResponse :=
  (SigProvisioningResponse.initWithData data).filter (·.isValid)

/-- An attempt in progress gets what it waits for, or a failed PDU, and its bearer is open when it
gets the capabilities.  Then nothing that is left behind is called. -/
def Orderly (p : Provisioning) : Occurrence → Prop
  | .deliver data env => ∀ r ∈ validResponse data, ∀ step ∈ p.manager.provisionResponseBlock,
      if p.manager.InProgress then
        r.type = step.awaited ∧ (step = .getCapabilities → env.isOpen = true) ∨ r.type = .failed
      else r.type ≠ step.awaited ∧ r.type ≠ .failed
  | .timeout _ _ => p.manager.provisionResponseBlock.isSome → p.manager.InProgress
  | .disconnect isCurrent =>
    isCurrent = true → p.manager.isProvisionning = true → p.manager.InProgress
  | .stopMeshConnectComplete => True

instance (p : Provisioning) (o : Occurrence) : Decidable (Orderly p o) :=
  match o with
  | .deliver _ _ => inferInstanceAs (Decidable (∀ r ∈ _, ∀ step ∈ _, ite _ _ _))
  | .timeout _ _ => inferInstanceAs (Decidable (_ → _))
  | .disconnect _ => inferInstanceAs (Decidable (_ → _ → _))
  | .stopMeshConnectComplete => inferInstanceAs (Decidable True)

/-! ### Phases -/

/-- How an attempt stands. -/
inductive Phase (call : ℕ) (p : Provisioning) : Prop where
  | running (hnone : ∀ entry ∈ p.attempt, ¬ IsResult call entry) (step : Step)
      (hblock : p.manager.provisionResponseBlock = some step) (htimer : step ∈ p.manager.timers)
      (hprogress : p.manager.InProgress) (hstops : p.manager.stops = 0)
      (hblocks : p.manager.blocks = some call)
      (hcallback : p.manager.disconnectCallback = some call)
      (hkey : p.manager.networkKey ≠ none)
  | stopping (hnone : ∀ entry ∈ p.attempt, ¬ IsResult call entry)
      (hprogress : ¬ p.manager.InProgress) (hstops : p.manager.stops = 1)
      (hblocks : p.manager.blocks = some call)
  | ended (hresult : ∃ entry ∈ p.attempt, IsResult call entry)
      (hsilent : p.attempt.Pairwise fun entry later => IsResult call entry → ¬ Acts later)
      (hprogress : ¬ p.manager.InProgress) (hstops : p.manager.stops = 0)

theorem IsResult.acts {call : ℕ} {entry : Entry} (h : IsResult call entry) : Acts entry := by
  cases entry with
  | received _ => exact h
  | _ => trivial

namespace Phase

variable {call : ℕ} {cr : ProvisioningCrypto} {p : Provisioning}

theorem oneResult (h : Phase call p) : OneResult call p := by
  cases h with
  | running hnone step hblock htimer =>
    refine ⟨List.pairwise_of_forall_mem_list fun entry hentry _ _ hresult =>
      absurd hresult (hnone entry hentry), fun hsettled => ?_⟩
    exact absurd hblock (hsettled.2 step htimer)
  | stopping hnone _ hstops =>
    refine ⟨List.pairwise_of_forall_mem_list fun entry hentry _ _ hresult =>
      absurd hresult (hnone entry hentry), fun hsettled => ?_⟩
    exact absurd (hstops.symm.trans hsettled.1) Nat.one_ne_zero
  | ended hresult hsilent => exact ⟨hsilent, fun _ => hresult⟩

/-- Entries that do nothing are no results. -/
theorem none_append {attempt entries : List Entry}
    (hnone : ∀ entry ∈ attempt, ¬ IsResult call entry)
    (hquiet : ∀ entry ∈ entries, ¬ IsResult call entry) :
    ∀ entry ∈ attempt ++ entries, ¬ IsResult call entry := by
  intro entry hentry
  cases List.mem_append.mp hentry with
  | inl h => exact hnone entry h
  | inr h => exact hquiet entry h

/-- The first result is the last entry. -/
theorem over_of_last {m : SigProvisioningManager} {attempt entries : List Entry} {entry : Entry}
    (hnone : ∀ entry ∈ attempt ++ entries, ¬ IsResult call entry) (hresult : IsResult call entry)
    (hprogress : ¬ m.InProgress) (hstops : m.stops = 0) :
    Phase call ⟨m, attempt ++ (entries ++ [entry])⟩ := by
  rw [← List.append_assoc]
  refine .ended ⟨entry, List.mem_append_right _ List.mem_cons_self, hresult⟩ ?_ hprogress hstops
  refine List.pairwise_append.mpr ⟨?_, List.pairwise_singleton _ _, ?_⟩
  · exact List.pairwise_of_forall_mem_list fun entry hentry _ _ hresult =>
      absurd hresult (hnone entry hentry)
  · exact fun entry hentry _ _ hresult => absurd hresult (hnone entry hentry)

/-- What is quiet keeps an attempt that is not in progress where it is. -/
theorem quiet (h : Phase call p) (hprogress : ¬ p.manager.InProgress)
    {m' : SigProvisioningManager} {entries : List Entry} (hquiet : ∀ entry ∈ entries, ¬ Acts entry)
    (hprogress' : ¬ m'.InProgress) (hstops : m'.stops = p.manager.stops)
    (hblocks : m'.blocks = p.manager.blocks) : Phase call ⟨m', p.attempt ++ entries⟩ := by
  have hnoResult : ∀ entry ∈ entries, ¬ IsResult call entry :=
    fun entry hentry hresult => hquiet entry hentry hresult.acts
  cases h with
  | running _ _ _ _ hin => exact absurd hin hprogress
  | stopping hnone _ hone hcall =>
    exact .stopping (none_append hnone hnoResult) hprogress' (hstops.trans hone)
      (hblocks.trans hcall)
  | ended hresult hsilent _ hzero =>
    obtain ⟨entry, hentry, hresult⟩ := hresult
    refine .ended ⟨entry, List.mem_append_left _ hentry, hresult⟩ ?_ hprogress' (hstops.trans hzero)
    refine List.pairwise_append.mpr ⟨hsilent, ?_, fun _ _ later hlater _ => hquiet later hlater⟩
    exact List.pairwise_of_forall_mem_list fun _ _ later hlater _ => hquiet later hlater

/-- An attempt that goes on. -/
theorem advance (h : Phase call p) (hprogress : p.manager.InProgress)
    {m' : SigProvisioningManager} {step : Step} (hadv : Advanced p.manager m' step)
    (hd : m'.provisioningData.isSome) {entries : List Entry}
    (hquiet : ∀ entry ∈ entries, ¬ IsResult call entry) :
    Phase call ⟨m', p.attempt ++ entries⟩ := by
  cases h with
  | running hnone _ _ _ _ hstops hblocks hcallback hkey =>
    refine .running (none_append hnone hquiet) step hadv.block hadv.timer
      ⟨hadv.isProvisionning.trans hprogress.1, hd, ?_⟩ (hadv.stops.trans hstops)
      (hadv.blocks.trans hblocks) (hadv.disconnectCallback.trans hcallback)
      (hadv.networkKey ▸ hkey)
    rw [hadv.block]
    rfl
  | stopping _ hnot => exact absurd hprogress hnot
  | ended _ _ hnot => exact absurd hprogress hnot

/-- An attempt in progress that fails. -/
theorem fail (h : Phase call p) (hprogress : p.manager.InProgress)
    {m' : SigProvisioningManager} (hd : m'.provisioningData = none)
    (hstops : m'.stops = p.manager.stops + 1) (hblocks : m'.blocks = p.manager.blocks)
    {entries : List Entry} (hquiet : ∀ entry ∈ entries, ¬ IsResult call entry) :
    Phase call ⟨m', p.attempt ++ entries⟩ := by
  have hnot : ¬ m'.InProgress := by
    intro hin
    have hsome := hin.2.1
    rw [hd] at hsome
    cases hsome
  cases h with
  | running hnone _ _ _ _ hzero hcall =>
    exact .stopping (none_append hnone hquiet) hnot (hstops.trans (congrArg (· + 1) hzero))
      (hblocks.trans hcall)
  | stopping _ hnot => exact absurd hprogress hnot
  | ended _ _ hnot => exact absurd hprogress hnot

/-- An attempt in progress that ends with a callback of its call. -/
theorem last (h : Phase call p) (hprogress : p.manager.InProgress) {m' : SigProvisioningManager}
    (hnot : ¬ m'.InProgress) (hstops : m'.stops = p.manager.stops) {entries : List Entry}
    (hquiet : ∀ entry ∈ entries, ¬ IsResult call entry) {entry : Entry}
    (hresult : IsResult call entry) : Phase call ⟨m', p.attempt ++ (entries ++ [entry])⟩ := by
  cases h with
  | running hnone _ _ _ _ hzero =>
    exact over_of_last (none_append hnone hquiet) hresult hnot (hstops.trans hzero)
  | stopping _ hnot => exact absurd hprogress hnot
  | ended _ _ hnot => exact absurd hprogress hnot

theorem kept (h : Phase call p) (hprogress : p.manager.InProgress) :
    p.manager.networkKey ≠ none ∧ p.manager.blocks = some call := by
  cases h with
  | running _ _ _ _ _ _ hblocks _ hkey => exact ⟨hkey, hblocks⟩
  | stopping _ hnot => exact absurd hprogress hnot
  | ended _ _ hnot => exact absurd hprogress hnot

/-- A PDU for an attempt in progress. -/
theorem respond (h : Phase call p) (hprogress : p.manager.InProgress) {env : Surroundings}
    {step : Step} (hb : p.manager.provisionResponseBlock = some step) {r : SigProvisioningResponse}
    (hr : r.type = step.awaited ∧ (step = .getCapabilities → env.isOpen = true) ∨
      r.type = .failed) :
    Phase call ⟨(p.manager.respond cr env step (some r)).1,
      p.attempt ++ .received r :: (p.manager.respond cr env step (some r)).2⟩ := by
  obtain ⟨d, hd⟩ := Option.isSome_iff_exists.mp hprogress.2.1
  have hres := SigProvisioningManager.respond_handled cr env hd step (some r)
  generalize p.manager.respond cr env step (some r) = result at hres
  cases hres with
  | failed _ =>
    have hd' : (p.manager.failed step).provisioningData = none := rfl
    exact h.fail hprogress hd' rfl rfl (by simp [IsResult])
  | ignored hne hne' => exact absurd hr (not_or_intro (fun hr => hne hr.1) hne')
  | stopped htype hstop =>
    obtain ⟨hkey, -⟩ := h.kept hprogress
    rcases hr with hopen | hfailed
    · exact (hstop.elim (fun hclosed => Bool.false_ne_true (hclosed.symm.trans (hopen.2 rfl)))
        hkey).elim
    · cases htype.symm.trans hfailed
  | capabilities _ hadv hd' => exact h.advance hprogress hadv (hd' ▸ rfl) (by simp [IsResult])
  | publicKey _ hadv hd' => exact h.advance hprogress hadv (hd' ▸ rfl) (by simp [IsResult])
  | confirmation _ hadv hd' => exact h.advance hprogress hadv (hd' ▸ rfl) (by simp [IsResult])
  | random _ hadv hd' => exact h.advance hprogress hadv (hd' ▸ rfl) (by simp [IsResult])
  | complete _ =>
    obtain ⟨-, hcall⟩ := h.kept hprogress
    have hlist : Entry.received r :: (p.manager.cancel .encryptedData).provisionSuccess =
        (.received r :: (p.manager.cancel .encryptedData).provisionSuccess.take 1) ++
          [.success call] := by
      simp [SigProvisioningManager.provisionSuccess, SigProvisioningManager.cancel, hcall]
    have hnot : ¬ (p.manager.ignored .encryptedData).InProgress := by
      intro hin
      cases hin.2.2
    rw [hlist]
    exact h.last hprogress hnot rfl
      (by simp [SigProvisioningManager.provisionSuccess, IsResult]) rfl

/-- Nothing changes. -/
theorem same (h : Phase call p) : Phase call ⟨p.manager, p.attempt ++ []⟩ := by
  rw [List.append_nil]
  exact h

theorem deliver (h : Phase call p) {data : List Byte} {env : Surroundings}
    (ho : Orderly p (.deliver data env)) : Phase call (p.occur cr (.deliver data env)) := by
  unfold Provisioning.occur SigProvisioningManager.occur SigProvisioningManager.didDeliverData
  dsimp only
  split
  case h_1 => exact h.same
  case h_2 r hr =>
    have hreceived : ∀ entry ∈ [Entry.received r], ¬ Acts entry := by simp [Acts]
    unfold SigProvisioningManager.callResponseBlock
    cases hb : p.manager.provisionResponseBlock with
    | none =>
      have hnot : ¬ p.manager.InProgress := by
        intro hin
        have hsome := hin.2.2
        rw [hb] at hsome
        cases hsome
      exact h.quiet hnot hreceived hnot rfl rfl
    | some step =>
      dsimp only
      have hr' := ho r hr step hb
      by_cases hprogress : p.manager.InProgress
      · rw [if_pos hprogress] at hr'
        exact h.respond hprogress hb hr'
      · rw [if_neg hprogress] at hr'
        rw [SigProvisioningManager.respond_ignored hr'.1 hr'.2]
        have hnot : ¬ (p.manager.ignored step).InProgress := by
          intro hin
          obtain ⟨step', hleft⟩ := Option.isSome_iff_exists.mp hin.2.2
          exact hprogress ⟨hin.1, hin.2.1, Option.isSome_iff_exists.mpr
            ⟨step', OnTrack.handlerLeft_eq_some hleft⟩⟩
        exact h.quiet hprogress hreceived hnot rfl rfl

theorem timeout (h : Phase call p) {step : Step} {env : Surroundings}
    (ho : Orderly p (.timeout step env)) : Phase call (p.occur cr (.timeout step env)) := by
  unfold Provisioning.occur SigProvisioningManager.occur
  dsimp only
  rcases SigProvisioningManager.stepTimeout_cases cr env p.manager step with
    ⟨hb, heq⟩ | ⟨step', hb, heq⟩
  · have hnot : ¬ p.manager.InProgress := by
      intro hin
      have hsome := hin.2.2
      rw [hb] at hsome
      cases hsome
    rw [heq]
    exact h.quiet hnot (fun _ hentry => nomatch hentry) hnot rfl rfl
  · have hprogress := ho (Option.isSome_iff_exists.mpr ⟨step', hb⟩)
    have hd : ((p.manager.cancel step).failed step').provisioningData = none := rfl
    rw [heq]
    exact h.fail hprogress hd rfl rfl fun _ hentry => nomatch hentry

theorem disconnect (h : Phase call p) {isCurrent : Bool} (ho : Orderly p (.disconnect isCurrent)) :
    Phase call (p.occur cr (.disconnect isCurrent)) := by
  unfold Provisioning.occur SigProvisioningManager.occur SigProvisioningManager.disconnected
  dsimp only
  split
  case h_1 => exact h.same
  case h_2 call' hcall' =>
    split
    case isFalse => exact h.same
    case isTrue hcurrent =>
      have hprogress := ho hcurrent.1 hcurrent.2
      have hnot : ¬ { p.manager with isProvisionning := false }.InProgress :=
        fun hin => Bool.false_ne_true hin.1
      cases h with
      | running hnone _ _ _ _ hstops _ hcallback =>
        have hresult : IsResult call (.fail call') :=
          Option.some.inj (hcall'.symm.trans hcallback)
        have hnone' := none_append hnone fun _ hentry => absurd hentry List.not_mem_nil
        exact over_of_last hnone' hresult hnot hstops
      | stopping _ hno => exact absurd hprogress hno
      | ended _ _ hno => exact absurd hprogress hno

theorem stopMeshConnectComplete (h : Phase call p) :
    Phase call (p.occur cr .stopMeshConnectComplete) := by
  unfold Provisioning.occur SigProvisioningManager.occur
    SigProvisioningManager.stopMeshConnectComplete
  dsimp only
  split
  case isTrue => exact h.same
  case isFalse hne =>
    cases h with
    | running _ _ _ _ _ hstops => exact absurd hstops hne
    | ended _ _ _ hstops => exact absurd hstops hne
    | stopping hnone hnot hstops hblocks =>
      have hlast : p.manager.blocks.toList.map Entry.fail = [] ++ [.fail call] := by
        rw [hblocks]
        rfl
      have hzero : p.manager.stops - 1 = 0 := by
        rw [hstops]
      rw [hlast]
      exact over_of_last (none_append hnone fun _ hentry => nomatch hentry) rfl hnot hzero

/-- An event that happens in order. -/
theorem occur (h : Phase call p) {o : Occurrence} (ho : Orderly p o) :
    Phase call (p.occur cr o) := by
  cases o with
  | deliver data env => exact h.deliver ho
  | timeout step env => exact h.timeout ho
  | disconnect isCurrent => exact h.disconnect ho
  | stopMeshConnectComplete => exact h.stopMeshConnectComplete

end Phase

/-- An attempt starts where no disconnect is under way. -/
theorem phase_start {p : Provisioning} (hstops : p.manager.stops = 0) {source : ProvisioningSource}
    {call : ProvisionCall}
    (hfound : source.provisionNet call.networkKey call.netkeyIndex ≠ none) :
    Phase p.manager.calls (p.start source call) := by
  obtain ⟨net, hnet⟩ := Option.ne_none_iff_exists'.mp hfound
  unfold Provisioning.start SigProvisioningManager.provision
  dsimp only
  rw [hnet]
  refine .running ?_ .getCapabilities rfl List.mem_cons_self ⟨rfl, rfl, rfl⟩ hstops rfl rfl
    (Option.some_ne_none _)
  intro entry hentry
  cases List.mem_singleton.mp hentry
  exact id

/-- **One result for each attempt** whose events come in order. -/
theorem provision_oneResult (cr : ProvisioningCrypto) {p : Provisioning}
    (hstops : p.manager.stops = 0) {source : ProvisioningSource} {call : ProvisionCall}
    (hfound : source.provisionNet call.networkKey call.netkeyIndex ≠ none) {os : List Occurrence}
    (horderly : GoodRun (Provisioning.occur cr) Orderly (p.start source call) os) :
    OneResult p.manager.calls (os.foldl (Provisioning.occur cr) (p.start source call)) :=
  (horderly.inv (phase_start hstops hfound) fun _ _ h ho => h.occur ho).oneResult

/-- The events behind the start of a session. -/
def occurrences (es : List Event) : List Occurrence :=
  es.filterMap fun
    | .occurs o => some o
    | .provision _ _ => none

def completeEvent : Event := delivered true [8]

theorem provision_oneResult_sample :
    OneResult 0 ((occurrences (openSession ++ [randomEvent, completeEvent])).foldl
      (Provisioning.occur sumCrypto)
      (Provisioning.initial.start phoneSource ⟨2, List.replicate 16 0xAA, 0, none⟩)) :=
  provision_oneResult (p := .initial) sumCrypto rfl (by decide +kernel) (by decide +kernel)

/-- The first timer fires, its disconnect fails the attempt, and so does the end of the
disconnect. -/
theorem provision_oneResult_refuted :
    ¬ ∀ (cr : ProvisioningCrypto) (p : Provisioning) (source : ProvisioningSource)
      (call : ProvisionCall) (os : List Occurrence), p.manager.stops = 0 →
      source.provisionNet call.networkKey call.netkeyIndex ≠ none →
      OneResult p.manager.calls (os.foldl (Provisioning.occur cr) (p.start source call)) := by
  intro h
  have hone := h sumCrypto .initial phoneSource ⟨2, List.replicate 16 0xAA, 0, none⟩
    [.timeout .getCapabilities ⟨true, false, phoneSource, []⟩, .disconnect true,
      .stopMeshConnectComplete] rfl (by decide +kernel)
  exact absurd hone.silent (by decide +kernel)

end PirMesh.Provisioner
